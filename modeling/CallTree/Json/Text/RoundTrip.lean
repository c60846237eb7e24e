import CallTree.Json.Text
import CallTree.Json.Token.RoundTrip

/-!
# Written values read back

The text of a value parses as that value (`parse?_render`). So two values with the same text are
equal (`render_injective`). Where some arrays have to be rows of bytes, this is so for every value
without an array that is too long (`parseRows?_render`).

The proof has two halves. The tokens of a value lead the reader from "a value must come" to "this
value is complete", and it never finds a full row before a token (`leads_tokens`). And no number
among the written tokens is followed by text that continues it (`apart_tokens`).
-/

namespace CallTree

namespace Json

/-! ## Tokens -/

/-- The tokens take the reader from one point to another, and none comes where a row is full. -/
def Leads (rows : Rows) : Progress → List Token → Progress → Prop
  | before, [], after => before = after
  | before, token :: tokens, after =>
    before.fullRow? rows = none ∧
      ∃ next, before.accept token = some next ∧ Leads rows next tokens after

theorem leads_cons {rows : Rows} {before next after : Progress} {token : Token}
    {tokens : List Token} (hfull : before.fullRow? rows = none)
    (haccept : before.accept token = some next) (h : Leads rows next tokens after) :
    Leads rows before (token :: tokens) after :=
  ⟨hfull, next, haccept, h⟩

theorem leads_append {rows : Rows} {before middle after : Progress} {first second : List Token}
    (hfirst : Leads rows before first middle) (hsecond : Leads rows middle second after) :
    Leads rows before (first ++ second) after := by
  induction first generalizing before with
  | nil =>
    have hmiddle : before = middle := hfirst
    rw [hmiddle]
    exact hsecond
  | cons token first ih =>
    obtain ⟨hfull, next, haccept, hnext⟩ := hfirst
    exact ⟨hfull, next, haccept, ih hnext⟩

theorem leads_firstItem {rows : Rows} {v : Value} {inside : List Container} {after : Progress}
    {rest : List Token} (h : Leads rows (.value (.array [] :: inside)) (v.tokens ++ rest) after) :
    Leads rows (.firstItem inside) (v.tokens ++ rest) after := by
  cases v with
  | array items =>
    cases items <;> exact ⟨rfl, h.2⟩
  | object members =>
    cases members with
    | nil => exact ⟨rfl, h.2⟩
    | cons member members => exact ⟨rfl, h.2⟩
  | _ => exact ⟨rfl, h.2⟩

/-- No array in a value that is to be read is longer than its place allows. Only the value itself,
or what stands in it, can stand in the outermost container. -/
def Admits (rows : Rows) (v : Value) : List Container → Prop
  | [] => v.FitsRows rows
  | [outer] => v.Fits (rows.next? outer)
  | _ => True

/-- A point at which a value must come and before which no row is full. -/
def Awaits (rows : Rows) (v : Value) (inside : List Container) : Prop :=
  (Progress.value inside).fullRow? rows = none ∧ Admits rows v inside

theorem awaits_item {rows : Rows} {inside : List Container} (done rest : List Value) {v : Value}
    (h : Admits rows (.array (done.reverse ++ v :: rest)) inside) :
    Awaits rows v (.array done :: inside) := by
  match inside with
  | [] =>
    refine ⟨rfl, ?_⟩
    show v.Fits (Rows.behind? rows.items done)
    rw [Rows.behind?_eq]
    refine h done.length v ?_
    rw [List.getElem?_append_right (by simp)]
    simp
  | [outer] =>
    refine ⟨?_, trivial⟩
    unfold Progress.fullRow?
    split
    next items outer' heq =>
      cases heq
      split
      next length hlength =>
        have hle := h length hlength
        simp only [List.length_append, List.length_reverse, List.length_cons] at hle
        exact if_neg (by omega)
      next => rfl
    next hne => exact absurd rfl (hne done outer)
  | _ :: _ :: _ => exact ⟨rfl, trivial⟩

theorem awaits_member {rows : Rows} {inside : List Container} (done rest : List (Text × Value))
    {name : Text} {v : Value}
    (h : Admits rows (.object (done.reverse ++ (name, v) :: rest)) inside) :
    Awaits rows v (.object done name :: inside) := by
  match inside with
  | [] => exact ⟨rfl, h (name, v) (by simp)⟩
  | [_] => exact ⟨rfl, trivial⟩
  | _ :: _ :: _ => exact ⟨rfl, trivial⟩

mutual

theorem leads_tokens {rows : Rows} (v : Value) (inside : List Container)
    (h : Awaits rows v inside) :
    Leads rows (.value inside) v.tokens (.complete inside v) := by
  match v with
  | .null => exact leads_cons h.1 rfl rfl
  | .bool b => exact leads_cons h.1 rfl rfl
  | .number n => exact leads_cons h.1 rfl rfl
  | .text content => exact leads_cons h.1 rfl rfl
  | .array [] => exact leads_cons h.1 rfl (leads_cons rfl rfl rfl)
  | .array (item :: rest) =>
    have hitem := leads_tokens item (.array [] :: inside) (awaits_item [] rest h.2)
    have hrest := leads_itemsAfter rest inside [] item h.2
    exact leads_cons h.1 rfl (leads_firstItem (leads_append hitem hrest))
  | .object [] => exact leads_cons h.1 rfl (leads_cons rfl rfl rfl)
  | .object ((name, value) :: rest) =>
    have hawaits := awaits_member [] rest h.2
    have hvalue := leads_tokens value (.object [] name :: inside) hawaits
    have hrest := leads_membersAfter rest inside [] name value h.2
    exact leads_cons h.1 rfl (leads_cons rfl rfl (leads_cons rfl rfl (leads_append hvalue hrest)))

theorem leads_itemsAfter {rows : Rows} (items : List Value) (inside : List Container)
    (done : List Value) (v : Value)
    (h : Admits rows (.array (done.reverse ++ v :: items)) inside) :
    Leads rows (.complete (.array done :: inside) v)
      (Value.itemsAfter items ++ [Token.closeArray])
      (.complete inside (.array (done.reverse ++ v :: items))) := by
  match items with
  | [] => exact leads_cons rfl rfl (by simp [Leads])
  | item :: rest =>
    have hmore : done.reverse ++ v :: item :: rest = (v :: done).reverse ++ item :: rest := by simp
    rw [hmore] at h ⊢
    have hawaits := awaits_item (v :: done) rest h
    have hitem := leads_tokens item (.array (v :: done) :: inside) hawaits
    have hrest := leads_itemsAfter rest inside (v :: done) item h
    rw [Value.itemsAfter, List.cons_append, List.append_assoc]
    exact leads_cons rfl rfl (leads_append hitem hrest)

theorem leads_membersAfter {rows : Rows} (members : List (Text × Value))
    (inside : List Container) (done : List (Text × Value)) (name : Text) (v : Value)
    (h : Admits rows (.object (done.reverse ++ (name, v) :: members)) inside) :
    Leads rows (.complete (.object done name :: inside) v)
      (Value.membersAfter members ++ [Token.closeObject])
      (.complete inside (.object (done.reverse ++ (name, v) :: members))) := by
  match members with
  | [] => exact leads_cons rfl rfl (by simp [Leads])
  | (next, value) :: rest =>
    have hmore : done.reverse ++ (name, v) :: (next, value) :: rest =
        ((name, v) :: done).reverse ++ (next, value) :: rest := by simp
    rw [hmore] at h ⊢
    have hawaits := awaits_member ((name, v) :: done) rest h
    have hvalue := leads_tokens value (.object ((name, v) :: done) next :: inside) hawaits
    have hrest := leads_membersAfter rest inside ((name, v) :: done) next value h
    rw [Value.membersAfter, List.cons_append, List.cons_append, List.cons_append,
      List.append_assoc]
    exact leads_cons rfl rfl (leads_cons rfl rfl (leads_cons rfl rfl (leads_append hvalue hrest)))

end

/-! ## Characters -/

/-- No number among the tokens is continued by what is written behind it. -/
def Apart : List Token → List Char → Prop
  | [], _ => True
  | token :: tokens, rest =>
    (∀ n, token = .number n → Token.Delimits (tokens.flatMap Token.chars ++ rest)) ∧
      Apart tokens rest

theorem apart_append {first second : List Token} {rest : List Char}
    (hfirst : Apart first (second.flatMap Token.chars ++ rest)) (hsecond : Apart second rest) :
    Apart (first ++ second) rest := by
  induction first with
  | nil => exact hsecond
  | cons token first ih =>
    refine ⟨?_, ih hfirst.2⟩
    show ∀ n, _ → Token.Delimits ((first ++ second).flatMap Token.chars ++ rest)
    rw [List.flatMap_append, List.append_assoc]
    exact hfirst.1

/-- Nothing can continue a token other than a number. -/
theorem apart_cons {token : Token} {tokens : List Token} {rest : List Char}
    (htoken : ∀ n, token ≠ .number n) (h : Apart tokens rest) : Apart (token :: tokens) rest :=
  ⟨fun n hn => absurd hn (htoken n), h⟩

/-- A text that starts with a comma or the end of a container cannot continue a number. -/
theorem delimits_cons {c : Char} (rest : List Char) (h : c = ',' ∨ c = ']' ∨ c = '\x7d') :
    Token.Delimits (c :: rest) := by
  intro d hd
  cases hd
  rcases h with rfl | rfl | rfl <;> decide

theorem delimits_itemsAfter (items : List Value) (rest : List Char) :
    Token.Delimits
      ((Value.itemsAfter items ++ [Token.closeArray]).flatMap Token.chars ++ rest) := by
  cases items with
  | nil => exact delimits_cons _ (.inr (.inl rfl))
  | cons item items => exact delimits_cons _ (.inl rfl)

theorem delimits_membersAfter (members : List (Text × Value)) (rest : List Char) :
    Token.Delimits
      ((Value.membersAfter members ++ [Token.closeObject]).flatMap Token.chars ++ rest) := by
  cases members with
  | nil => exact delimits_cons _ (.inr (.inr rfl))
  | cons member members => exact delimits_cons _ (.inl rfl)

mutual

theorem apart_tokens (v : Value) {rest : List Char} (hrest : Token.Delimits rest) :
    Apart v.tokens rest := by
  match v with
  | .null => exact apart_cons (by intro n h; cases h) trivial
  | .bool b => exact apart_cons (by intro n h; cases h) trivial
  | .number n => exact ⟨fun _ _ => hrest, trivial⟩
  | .text content => exact apart_cons (by intro n h; cases h) trivial
  | .array [] =>
    exact apart_cons (by intro n h; cases h) (apart_cons (by intro n h; cases h) trivial)
  | .array (item :: items) =>
    exact apart_cons (by intro n h; cases h)
      (apart_append (apart_tokens item (delimits_itemsAfter items rest))
        (apart_itemsAfter items rest))
  | .object [] =>
    exact apart_cons (by intro n h; cases h) (apart_cons (by intro n h; cases h) trivial)
  | .object ((name, value) :: members) =>
    exact apart_cons (by intro n h; cases h) (apart_cons (by intro n h; cases h)
      (apart_cons (by intro n h; cases h)
        (apart_append (apart_tokens value (delimits_membersAfter members rest))
          (apart_membersAfter members rest))))

theorem apart_itemsAfter (items : List Value) (rest : List Char) :
    Apart (Value.itemsAfter items ++ [Token.closeArray]) rest := by
  match items with
  | [] => exact apart_cons (by intro n h; cases h) trivial
  | item :: items =>
    rw [Value.itemsAfter, List.cons_append, List.append_assoc]
    exact apart_cons (by intro n h; cases h)
      (apart_append (apart_tokens item (delimits_itemsAfter items rest))
        (apart_itemsAfter items rest))

theorem apart_membersAfter (members : List (Text × Value)) (rest : List Char) :
    Apart (Value.membersAfter members ++ [Token.closeObject]) rest := by
  match members with
  | [] => exact apart_cons (by intro n h; cases h) trivial
  | (name, value) :: members =>
    rw [Value.membersAfter, List.cons_append, List.cons_append, List.cons_append,
      List.append_assoc]
    exact apart_cons (by intro n h; cases h) (apart_cons (by intro n h; cases h)
      (apart_cons (by intro n h; cases h)
        (apart_append (apart_tokens value (delimits_membersAfter members rest))
          (apart_membersAfter members rest))))

end

/-! ## Reading -/

/-- A token is taken off a text where no row is full and the token may come. -/
theorem readOn?_of_next? {rows : Rows} {progress next : Progress} {token : Token} {c : Char}
    {rest left : List Char} (hfull : progress.fullRow? rows = none) (hblank : Token.isBlank c = false)
    (hnext : Token.next? (c :: rest) = some (token, left))
    (haccept : progress.accept token = some next) :
    Value.readOn? rows progress (c :: rest) = Value.readOn? rows next left := by
  rw [Value.readOn?, hblank]
  simp only [Bool.false_eq_true, if_false]
  split
  next h => rw [hfull] at h; cases h
  next =>
    split
    next h =>
      rw [hnext] at h
      cases h
      rw [haccept]
    next h => rw [hnext] at h; cases h

/-- A written token is taken off a text that cannot continue it. -/
theorem readOn?_chars {rows : Rows} {progress next : Progress} {token : Token} {rest : List Char}
    (hfull : progress.fullRow? rows = none) (haccept : progress.accept token = some next)
    (hrest : ∀ n, token = .number n → Token.Delimits rest) :
    Value.readOn? rows progress (token.chars ++ rest) = Value.readOn? rows next rest := by
  obtain ⟨c, tail, hc, hblank⟩ := Token.exists_chars_eq_cons_not_blank token
  have hnext := Token.next?_chars token hrest
  rw [hc, List.cons_append] at hnext ⊢
  exact readOn?_of_next? hfull hblank hnext haccept

theorem readOn?_of_leads {rows : Rows} {before after : Progress} {tokens : List Token}
    {rest : List Char} (hleads : Leads rows before tokens after) (hapart : Apart tokens rest) :
    Value.readOn? rows before (tokens.flatMap Token.chars ++ rest) =
    Value.readOn? rows after rest := by
  induction tokens generalizing before with
  | nil =>
    have hafter : before = after := hleads
    rw [hafter]
    rfl
  | cons token tokens ih =>
    obtain ⟨hfull, next, haccept, hnext⟩ := hleads
    rw [List.flatMap_cons, List.append_assoc, readOn?_chars hfull haccept hapart.1]
    exact ih hnext hapart.2

/-- The text of a value reads back as that value unless an array in it is too long. -/
theorem parseRows?_render {rows : Rows} (v : Value) (h : v.FitsRows rows) :
    Value.parseRows? rows v.render = some v := by
  have hread := readOn?_of_leads (leads_tokens v [] ⟨rfl, h⟩) (apart_tokens v Token.delimits_nil)
  unfold Value.parseRows? Value.render Value.chars
  rw [String.toList_ofList]
  rw [List.append_nil] at hread
  rw [hread, Value.readOn?]
  rfl

/-- The text of a value reads back as that value. -/
theorem parse?_render (v : Value) : Value.parse? v.render = some v :=
  parseRows?_render v v.fitsRows_none

/-- Two values with the same text are equal. -/
theorem render_injective {v w : Value} (h : v.render = w.render) : v = w := by
  have hv := parse?_render v
  rw [h, parse?_render] at hv
  exact (Option.some.inj hv).symm

end Json

end CallTree

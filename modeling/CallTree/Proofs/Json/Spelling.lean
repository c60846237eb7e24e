import CallTree.Json.Text.RoundTrip

/-!
# The texts of a value

A value is written in one way but has many texts: blanks may stand between the tokens, and a token
may be spelled in several ways. A text stands for a value exactly if its tokens are those that the
value is written with (`parse?_eq_some_iff`). The reader keeps everything that it has taken: at each
point the tokens taken so far can be told from what is open and what is complete
(`Progress.written`), and one token more is added by each step (`written_accept`).

So a reader that asks for rows of bytes reads every text of a value as that value, unless an array in
it is too long (`parseRows?_of_parse?`). The converse does not hold, as a reader of rows passes over
some texts that stand for no value.

Results:
1. `leads_eq_tokens`: the tokens that complete a value.
2. `readOn?_of_scans`, `scans_of_readOn?`: reading characters and reading tokens.
3. `parse?_eq_some_iff`, `parseRows?_of_parse?`.
-/

namespace CallTree

namespace Json

/-! ## 1. Tokens taken so far -/

/-- The tokens of a member. -/
def memberTokens (member : Text × Value) : List Token :=
  .text member.1 :: .colon :: member.2.tokens

theorem itemsAfter_concat (items : List Value) (v : Value) :
    Value.itemsAfter (items ++ [v]) =
      .comma :: (items.flatMap (fun item => item.tokens ++ [.comma]) ++ v.tokens) := by
  induction items with
  | nil => simp [Value.itemsAfter]
  | cons item items ih => simp [Value.itemsAfter, ih]

theorem membersAfter_concat (members : List (Text × Value)) (member : Text × Value) :
    Value.membersAfter (members ++ [member]) =
      .comma :: (members.flatMap (fun member => memberTokens member ++ [.comma]) ++
        memberTokens member) := by
  induction members with
  | nil => simp [Value.membersAfter, memberTokens]
  | cons first members ih => simp [Value.membersAfter, ih, memberTokens]

theorem tokens_array_concat (items : List Value) (v : Value) :
    (Value.array (items ++ [v])).tokens =
      .openArray :: (items.flatMap (fun item => item.tokens ++ [.comma]) ++
        (v.tokens ++ [.closeArray])) := by
  cases items with
  | nil => simp [Value.tokens, Value.itemsAfter]
  | cons item items => simp [Value.tokens, itemsAfter_concat]

theorem tokens_object_concat (members : List (Text × Value)) (member : Text × Value) :
    (Value.object (members ++ [member])).tokens =
      .openObject :: (members.flatMap (fun member => memberTokens member ++ [.comma]) ++
        (memberTokens member ++ [.closeObject])) := by
  cases members with
  | nil => simp [Value.tokens, Value.membersAfter, memberTokens]
  | cons first members => simp [Value.tokens, membersAfter_concat, memberTokens]

/-- The tokens of an object up to the comma behind the members that are complete, the most recent of
which is given first. -/
def Container.members (done : List (Text × Value)) : List Token :=
  .openObject :: done.reverse.flatMap fun member => memberTokens member ++ [.comma]

/-- The tokens of an open container in front of the value that comes next. -/
def Container.written : Container → List Token
  | .array done => .openArray :: done.reverse.flatMap fun item => item.tokens ++ [.comma]
  | .object done name => members done ++ [.text name, .colon]

/-- The tokens of the open containers. -/
def openTokens : List Container → List Token
  | [] => []
  | innermost :: inside => openTokens inside ++ innermost.written

namespace Progress

/-- The tokens that have been taken. -/
def written : Progress → List Token
  | value inside => openTokens inside
  | firstItem inside => openTokens inside ++ [.openArray]
  | firstName inside => openTokens inside ++ [.openObject]
  | name inside done => openTokens inside ++ Container.members done
  | colon inside done content => openTokens inside ++ (Container.members done ++ [.text content])
  | complete inside v => openTokens inside ++ v.tokens

theorem written_startValue {inside : List Container} {token : Token} {next : Progress}
    (h : startValue inside token = some next) : next.written = openTokens inside ++ [token] := by
  unfold startValue at h
  split at h <;> cases h <;> rfl

/-- A token that is accepted is added to those taken before it. -/
theorem written_accept {progress next : Progress} {token : Token}
    (h : progress.accept token = some next) : next.written = progress.written ++ [token] := by
  unfold accept at h
  split at h
  case h_1 => exact written_startValue h
  case h_3 => simpa [written, openTokens, Container.written] using written_startValue h
  all_goals cases h
  all_goals simp [written, openTokens, Container.written, Container.members, Value.tokens,
    tokens_array_concat, tokens_object_concat, memberTokens]

end Progress

theorem written_leads {rows : Rows} {before after : Progress} {tokens : List Token}
    (h : Leads rows before tokens after) : after.written = before.written ++ tokens := by
  induction tokens generalizing before with
  | nil =>
    have hafter : before = after := h
    rw [hafter, List.append_nil]
  | cons token tokens ih =>
    obtain ⟨-, next, haccept, hnext⟩ := h
    rw [ih hnext, Progress.written_accept haccept, List.append_assoc, List.singleton_append]

/-- A value is complete behind its own tokens only. -/
theorem leads_eq_tokens {rows : Rows} {tokens : List Token} {v : Value}
    (h : Leads rows (.value []) tokens (.complete [] v)) : tokens = v.tokens :=
  (written_leads h).symm

/-! ## 2. Characters -/

/-- The text is made of the tokens, with blanks between them. -/
inductive Scans : List Char → List Token → Prop
  | done : Scans [] []
  | blank {c : Char} {rest : List Char} {tokens : List Token} (hblank : Token.isBlank c = true)
      (hrest : Scans rest tokens) : Scans (c :: rest) tokens
  | token {c : Char} {rest left : List Char} {token : Token} {tokens : List Token}
      (hblank : Token.isBlank c = false) (hnext : Token.next? (c :: rest) = some (token, left))
      (hleft : Scans left tokens) : Scans (c :: rest) (token :: tokens)

theorem readOn?_of_scans {rows : Rows} {progress : Progress} {cs : List Char} {tokens : List Token}
    {v : Value} (hscans : Scans cs tokens) (hleads : Leads rows progress tokens (.complete [] v)) :
    Value.readOn? rows progress cs = some v := by
  induction hscans generalizing progress with
  | done =>
    have hcomplete : progress = .complete [] v := hleads
    rw [hcomplete, Value.readOn?]
    rfl
  | blank hblank _ ih =>
    rw [Value.readOn?, if_pos hblank]
    exact ih hleads
  | token hblank hnext _ ih =>
    obtain ⟨hfull, next, haccept, hmore⟩ := hleads
    rw [readOn?_of_next? hfull hblank hnext haccept]
    exact ih hmore

theorem Progress.value?_eq_some {progress : Progress} {v : Value} (h : progress.value? = some v) :
    progress = .complete [] v := by
  unfold value? at h
  split at h
  · cases h
    rfl
  · cases h

theorem Progress.fullRow?_none (progress : Progress) : progress.fullRow? Rows.none = none := by
  unfold fullRow?
  split
  next outer =>
    cases outer <;> rfl
  next => rfl

/-- What is read without rows of bytes has been read token by token. -/
theorem scans_of_readOn? {progress : Progress} {cs : List Char} {v : Value}
    (h : Value.readOn? Rows.none progress cs = some v) :
    ∃ tokens, Scans cs tokens ∧ Leads Rows.none progress tokens (.complete [] v) := by
  fun_induction Value.readOn? Rows.none progress cs with
  | case1 progress => exact ⟨[], .done, progress.value?_eq_some h⟩
  | case2 progress c rest hblank ih =>
    obtain ⟨tokens, hscans, hleads⟩ := ih h
    exact ⟨tokens, .blank hblank hscans, hleads⟩
  | case3 progress c rest hblank closed hfull =>
    rw [progress.fullRow?_none] at hfull
    cases hfull
  | case5 progress c rest hblank hfull token left hnext next haccept ih =>
    obtain ⟨tokens, hscans, hleads⟩ := ih h
    exact ⟨token :: tokens, .token (eq_false_of_ne_true hblank) hnext hscans,
      leads_cons hfull haccept hleads⟩
  | case4 | case6 | case7 => cases h

/-! ## 3. Texts -/

/-- A text stands for a value exactly if its tokens are those of the value. -/
theorem parse?_eq_some_iff {s : String} {v : Value} :
    Value.parse? s = some v ↔ Scans s.toList v.tokens := by
  constructor
  · intro h
    obtain ⟨tokens, hscans, hleads⟩ := scans_of_readOn? h
    rwa [leads_eq_tokens hleads] at hscans
  · intro h
    exact readOn?_of_scans h (leads_tokens v [] ⟨rfl, v.fitsRows_none⟩)

/-- A text that stands for a value is read as that value also where some arrays have to be rows of
bytes, unless an array in the value is too long. -/
theorem parseRows?_of_parse? {rows : Rows} {s : String} {v : Value} (h : Value.parse? s = some v)
    (hfits : v.FitsRows rows) : Value.parseRows? rows s = some v :=
  readOn?_of_scans (parse?_eq_some_iff.mp h) (leads_tokens v [] ⟨rfl, hfits⟩)

end Json

end CallTree

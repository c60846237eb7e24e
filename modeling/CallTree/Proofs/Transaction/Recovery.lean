import CallTree.Proofs.Json.Spelling
import CallTree.Transaction.Json
import Mathlib.Data.List.Nodup
import Mathlib.Data.List.Perm.Basic

/-!
# What the text of a transaction tells

A transaction is read back from its text, and from every other text that tells it. Its members may
stand in any order, members that are not known may be missing instead of `null`, and there may be any
members by other names, whatever their values (`ToldBy`). The text may be spelled in any way.

The reader looks members up by their names. Under each of its names it finds the member of the
transaction or, if that is `null`, perhaps nothing (`ToldBy.find?`); the order does not matter to it,
and nor do members by other names. It asks for rows of bytes under some of its names, but a
transaction is written without arrays, and under other names it asks for nothing.

Results:
1. `find?_of_perm`, `find?_append`, `find?_of_sublist`: looking names up.
2. `ToldBy.find?`, `ToldBy.ofFields?`, `ToldBy.fitsRows`: members that tell a transaction.
3. `ToldBy.parse?`, `parse?_toJson`: the texts of a transaction.
-/

namespace CallTree

namespace Json

/-! ## 1. Looking names up -/

theorem Value.fields?_ofMembers (members : Fields) : (ofMembers members).fields? = some members := by
  rw [ofMembers, fields?, List.mapM_map]
  induction members with
  | nil => rfl
  | cons member members ih => simp [List.mapM_cons, ih]

namespace Fields

variable {fields others kept : Fields} {name : String}

/-- The order of the members does not matter. -/
theorem find?_of_perm (h : fields.Perm others) (name : String) :
    fields.find? name = others.find? name := by
  have hfilter := h.filter fun field => field.1 == name
  unfold find?
  split
  next hnil => rw [hnil, List.nil_perm] at hfilter; rw [hfilter]
  next field hone => rw [hone, List.singleton_perm] at hfilter; rw [← hfilter]
  next hnil hone =>
    split
    next h => rw [h, List.perm_nil] at hfilter; exact absurd hfilter hnil
    next h => rw [h, List.perm_singleton] at hfilter; exact absurd hfilter (hone _)
    next => rfl

/-- Members by other names do not matter. -/
theorem find?_append (h : ∀ other ∈ others, other.1 ≠ name) :
    (fields ++ others).find? name = fields.find? name := by
  have hnone : others.filter (fun other => other.1 == name) = [] :=
    List.filter_eq_nil_iff.mpr fun other hother => by simpa using h other hother
  rw [find?, find?, List.filter_append, hnone, List.append_nil]

/-- Where all names differ and some members are left out, a name leads to its member or to
nothing. -/
theorem find?_of_sublist (hnames : (fields.map Prod.fst).Nodup) (hkept : kept.Sublist fields)
    {field : String × Value} (hfield : field ∈ fields) :
    field ∈ kept ∧ kept.find? field.1 = some (some field.2) ∨
    field ∉ kept ∧ kept.find? field.1 = some none := by
  have hone : fields.filter (fun other => other.1 == field.1) = [field] := by
    refine List.perm_singleton.mp ((List.perm_ext_iff_of_nodup
      (hnames.of_map.filter _) (List.nodup_singleton _)).mpr fun other => ?_)
    rw [List.mem_filter, List.mem_singleton, beq_iff_eq]
    constructor
    · rintro ⟨hother, hname⟩
      exact List.inj_on_of_nodup_map hnames hother hfield hname
    · rintro rfl
      exact ⟨hfield, rfl⟩
  have hsublist := hkept.filter fun other => other.1 == field.1
  rw [hone, List.sublist_singleton] at hsublist
  rcases hsublist with hnil | hsome
  · refine .inr ⟨fun hmem => ?_, by rw [find?, hnil]⟩
    exact List.filter_eq_nil_iff.mp hnil field hmem (beq_self_eq_true field.1)
  · refine .inl ⟨List.mem_of_mem_filter (hsome ▸ List.mem_singleton_self field), ?_⟩
    rw [find?, hsome]

end Fields

end Json

namespace Transaction

open Json

/-! ## 2. Members that tell a transaction -/

variable {tx : Transaction} {members : Fields}

/-- The members that a transaction is written with. -/
def ownMembers (tx : Transaction) : Fields :=
  (requiredNames ++ optionalNames).zip tx.items

/-- The members tell the transaction. They are its own in some order, except that some of those that
are `null` may be missing, together with members by other names. -/
def ToldBy (tx : Transaction) (members : Fields) : Prop :=
  ∃ kept others : Fields, members.Perm (kept ++ others) ∧ kept.Sublist tx.ownMembers ∧
    (∀ member ∈ tx.ownMembers, member ∉ kept → member.2 = .null) ∧
    ∀ other ∈ others, other.1 ∉ requiredNames ++ optionalNames

theorem map_fst_ownMembers (tx : Transaction) :
    tx.ownMembers.map Prod.fst = requiredNames ++ optionalNames := rfl

theorem nodup_names : (requiredNames ++ optionalNames).Nodup := by
  decide

/-- Under the name of a member of the transaction stands that member, or nothing if it is `null`. -/
theorem ToldBy.find? (h : tx.ToldBy members) {member : String × Value}
    (hmember : member ∈ tx.ownMembers) :
    members.find? member.1 = some (some member.2) ∨
    member.2 = .null ∧ members.find? member.1 = some none := by
  obtain ⟨kept, others, hperm, hkept, hnull, hothers⟩ := h
  have hname : member.1 ∈ requiredNames ++ optionalNames :=
    map_fst_ownMembers tx ▸ List.mem_map_of_mem hmember
  have hother : ∀ other ∈ others, other.1 ≠ member.1 :=
    fun other hmem heq => hothers other hmem (heq ▸ hname)
  rw [Fields.find?_of_perm hperm, Fields.find?_append hother]
  rcases Fields.find?_of_sublist (map_fst_ownMembers tx ▸ nodup_names) hkept hmember with
    ⟨-, hfound⟩ | ⟨hmissing, hfound⟩
  · exact .inl hfound
  · exact .inr ⟨hnull member hmember hmissing, hfound⟩

theorem ToldBy.required? (h : tx.ToldBy members) {member : String × Value}
    (hmember : member ∈ tx.ownMembers) (hknown : member.2 ≠ .null) :
    members.required? member.1 = some member.2 := by
  rcases h.find? hmember with hfound | ⟨hnull, -⟩
  · rw [Fields.required?, hfound]
  · exact absurd hnull hknown

theorem ToldBy.optional? (h : tx.ToldBy members) {member : String × Value}
    (hmember : member ∈ tx.ownMembers) : members.optional? member.1 = some member.2 := by
  rcases h.find? hmember with hfound | ⟨hnull, hfound⟩
  · rw [Fields.optional?, hfound]
  · rw [Fields.optional?, hfound, hnull]

theorem mapM_names {names : List String} {values : List Value} {read : String → Option Value}
    (hlength : names.length = values.length)
    (h : ∀ member ∈ names.zip values, read member.1 = some member.2) :
    names.mapM read = some values := by
  induction names generalizing values with
  | nil =>
    rw [List.eq_nil_of_length_eq_zero hlength.symm]
    rfl
  | cons name names ih =>
    cases values with
    | nil => cases hlength
    | cons v values =>
      rw [List.zip_cons_cons, List.forall_mem_cons] at h
      rw [List.mapM_cons, h.1, ih (Nat.succ.inj hlength) h.2]
      rfl

theorem items_required_ne_null (tx : Transaction) : ∀ v ∈ tx.items.take 8, v ≠ .null := by
  simp [items, Value.ofString, Value.ofNat, Value.ofAddress, Value.ofWord, Value.ofBytes]

/-- The reader gets all values of the transaction. -/
theorem ToldBy.ofFields? (h : tx.ToldBy members) : ofFields? members = some tx := by
  have hsplit : tx.ownMembers = requiredNames.zip (tx.items.take 8) ++
      optionalNames.zip (tx.items.drop 8) := rfl
  have hrequired : requiredNames.mapM members.required? = some (tx.items.take 8) := by
    refine mapM_names rfl fun member hmember => h.required? ?_ ?_
    · rw [hsplit]
      exact List.mem_append_left _ hmember
    · exact tx.items_required_ne_null _ (List.of_mem_zip hmember).2
  have hoptional : optionalNames.mapM members.optional? = some (tx.items.drop 8) := by
    refine mapM_names rfl fun member hmember => h.optional? ?_
    rw [hsplit]
    exact List.mem_append_right _ hmember
  simp only [Transaction.ofFields?, hrequired, hoptional, Option.bind_eq_bind, Option.bind_some,
    List.take_append_drop, ofItems?_items]

theorem fits_ofOption {α : Type} {write : α → Value} {length : Option Nat}
    (h : ∀ a, (write a).Fits length) (a : Option α) : (Value.ofOption write a).Fits length := by
  cases a with
  | none => trivial
  | some a => exact h a

/-- A transaction is written without arrays. -/
theorem fits_items (tx : Transaction) (length : Option Nat) : ∀ v ∈ tx.items, v.Fits length := by
  simp only [items, List.forall_mem_cons]
  refine ⟨trivial, trivial, trivial, trivial, trivial, trivial, trivial, trivial, ?_⟩
  refine ⟨?_, ?_, ?_, ?_, ?_, ?_, by simp⟩ <;>
    refine fits_ofOption (fun _ => ?_) _ <;> trivial

theorem rowLength?_eq_none {name : String} (h : name ∉ requiredNames ++ optionalNames) :
    rowLength? name = none := by
  have haddresses : ["from", "to"] ⊆ requiredNames ++ optionalNames := by decide
  have hhashes : ["block_hash", "transaction_hash"] ⊆ requiredNames ++ optionalNames := by decide
  rw [rowLength?, if_neg fun hname => h (haddresses hname),
    if_neg fun hname => h (hhashes hname)]

/-- No array among the members is longer than its place allows. -/
theorem ToldBy.fitsRows (h : tx.ToldBy members) : (Value.ofMembers members).FitsRows rows := by
  obtain ⟨kept, others, hperm, hkept, -, hothers⟩ := h
  intro entry hentry
  obtain ⟨member, hmember, rfl⟩ := List.mem_map.mp hentry
  rcases List.mem_append.mp (hperm.mem_iff.mp hmember) with hown | hother
  · exact tx.fits_items _ _ (List.of_mem_zip (hkept.subset hown)).2
  · show member.2.Fits (rowLength? member.1)
    rw [rowLength?_eq_none (hothers member hother)]
    exact member.2.fits_none

/-! ## 3. Texts -/

/-- A transaction is told by its own members. -/
theorem toldBy_ownMembers (tx : Transaction) : tx.ToldBy tx.ownMembers := by
  refine ⟨tx.ownMembers, [], by simp, List.Sublist.refl _, fun member hmember hmissing => ?_, by simp⟩
  exact absurd hmember hmissing

/-- Every text of members that tell the transaction is read as the transaction. -/
theorem ToldBy.parse? (h : tx.ToldBy members) {text : String}
    (htext : Value.parse? text = some (.ofMembers members)) : parse? text = some tx := by
  rw [Transaction.parse?, parseRows?_of_parse? htext h.fitsRows, Option.bind_some]
  show (Value.ofMembers members).fields?.bind Transaction.ofFields? = some tx
  rw [Value.fields?_ofMembers, Option.bind_some, h.ofFields?]

/-- A transaction is read back from its text, and from every text of members that tell it. -/
theorem parse?_toJson (tx : Transaction) :
    parse? tx.toJson.render = some tx ∧
    ∀ members, tx.ToldBy members →
      parse? (Value.ofMembers members).render = some tx ∧
      ∀ text, Value.parse? text = some (.ofMembers members) → parse? text = some tx := by
  refine ⟨tx.toldBy_ownMembers.parse? (parse?_render _), fun members h => ⟨?_, fun text => ?_⟩⟩
  · exact h.parse? (parse?_render _)
  · exact h.parse?

/-- A transaction of which no more is known than must be. -/
def sparse : Transaction :=
  ⟨.call, 1, 2, 5, 30000, 21000, [0xa0], [], none, none, none, none, none, none⟩

/-- The members of the transaction that are not `null`, the last one first, behind a member by
another name. -/
def reversed : Fields :=
  ("nonce", .array [.bool true, .object [(none, .null)]]) :: (sparse.ownMembers.take 8).reverse

theorem parse?_reversed :
    let written := Value.ofMembers reversed
    sparse.ToldBy reversed ∧ parse? written.render = some sparse ∧
    parse? (String.ofList ('\n' :: written.chars)) = some sparse := by
  have hperm : reversed.Perm (sparse.ownMembers.take 8 ++ reversed.take 1) := by
    show (reversed.take 1 ++ (sparse.ownMembers.take 8).reverse).Perm _
    exact List.perm_append_comm.trans ((List.reverse_perm _).append_right _)
  have hnull : ∀ member ∈ sparse.ownMembers.drop 8, member.2 = .null := by
    simp [ownMembers, sparse, items, requiredNames, optionalNames, Value.ofOption]
  have htold : sparse.ToldBy reversed := by
    refine ⟨_, _, hperm, List.take_sublist .., fun member hmember hmissing => ?_, ?_⟩
    · rw [← List.take_append_drop 8 sparse.ownMembers, List.mem_append] at hmember
      exact hnull member (hmember.resolve_left hmissing)
    · simp [reversed, requiredNames, optionalNames]
  have hblank : Scans ('\n' :: (Value.ofMembers reversed).chars)
      (Value.ofMembers reversed).tokens := by
    have hscans := parse?_eq_some_iff.mp (parse?_render (.ofMembers reversed))
    rw [Value.render, String.toList_ofList] at hscans
    exact .blank rfl hscans
  obtain ⟨hrender, htext⟩ := (parse?_toJson sparse).2 reversed htold
  refine ⟨htold, hrender, htext _ (parse?_eq_some_iff.mpr ?_)⟩
  rwa [String.toList_ofList]

end Transaction

end CallTree

import CallTree.Json.Text.RoundTrip
import CallTree.Proofs.Duration
import CallTree.Proofs.Record.Schema
import CallTree.Record.Json

/-!
# What the text of records tells

Nothing is lost when records are written: two lists of records with the same text are equal, if each
record describes some frame. Text determines a JSON value, so what is left is to find each part of a
record in its value. A part that is known stands under a name of its own, and a part that is not known
is left out, so it is enough to look names up (`Value.member?`).

No member says which shape an action or a result has. The shape of an action is seen from the names
that occur: only a call has a call type, and only a creation has init code. The shape of a result
cannot always be seen, as that of a call and that of a creation may both be without members. But the
record of a frame has the result that goes with its action (`Result.Suits`), so the action tells.

Results:
1. `ofWord_injective` and the like: every written scalar can be read back.
2. `member?_ofMembers`, `lookup_known`: where a part is found.
3. `Action.toJson_injective`, `Result.eq_of_toJson`, `eq_of_toJson`: what determines the parts.
4. `renderAll_eq_iff`: lists of records.
-/

namespace CallTree

namespace Json

namespace Value

/-! ## 1. Scalars -/

/-- What can be read back is not confused when it is written. -/
theorem injective_of_reads {α : Type} {write : α → Value} (read : Value → Option α)
    (h : ∀ a, read (write a) = some a) : Function.Injective write := by
  intro a b hsame
  have hread := h a
  rw [hsame, h] at hread
  exact (Option.some.inj hread).symm

theorem ofString_injective : Function.Injective ofString :=
  injective_of_reads string? string?_ofString

theorem ofWord_injective : Function.Injective ofWord :=
  injective_of_reads word? word?_ofWord

theorem ofBytes_injective : Function.Injective ofBytes :=
  injective_of_reads bytes? bytes?_ofBytes

theorem ofAddress_injective : Function.Injective ofAddress :=
  injective_of_reads address? address?_ofAddress

theorem ofHash_injective : Function.Injective ofHash :=
  injective_of_reads hash? hash?_ofHash

theorem ofNat_injective : Function.Injective ofNat := by
  intro n m h
  cases h
  rfl

theorem ofNat_toNat_injective : Function.Injective fun n : UInt64 => ofNat n.toNat :=
  injective_of_reads number64? number64?_ofNat

theorem ofQuantity_injective : Function.Injective ofQuantity := by
  intro n m h
  have hmarked : Hex.marked (Hex.quantity 16 n.toNat) = Hex.marked (Hex.quantity 16 m.toNat) :=
    String.ofList_injective (ofString_injective h)
  have hdigits : Hex.quantity 16 n.toNat = Hex.quantity 16 m.toNat := by
    rw [← Hex.unmarked_marked (Hex.quantity 16 n.toNat), hmarked, Hex.unmarked_marked]
  have hsmall (k : UInt64) : k.toNat % Nat.pow 16 16 = k.toNat := Nat.mod_eq_of_lt k.toNat_lt
  have hvalue := Hex.value?_quantity 16 n.toNat
  rw [hdigits, Hex.value?_quantity, hsmall, hsmall] at hvalue
  exact UInt64.toNat_inj.mp (Option.some.inj hvalue).symm

theorem ofDurationText_injective : Function.Injective fun d : Duration => ofString d.text :=
  fun _ _ h => Duration.text_injective (ofString_injective h)

/-! ## 2. Members -/

/-- The value of the first member by a name. -/
def member? : Value → String → Option Value
  | object members, name => members.lookup (some name)
  | _, _ => none

theorem member?_ofMembers (members : List (String × Value)) (name : String) :
    (ofMembers members).member? name = members.lookup name := by
  rw [ofMembers, member?]
  induction members with
  | nil => rfl
  | cons member members ih =>
    rw [List.map_cons, List.lookup_cons, List.lookup_cons, ih]
    rfl

/-- Objects that are equal have the same members by any name. -/
theorem lookup_of_ofMembers {members others : List (String × Value)}
    (h : ofMembers members = ofMembers others) (name : String) :
    members.lookup name = others.lookup name := by
  rw [← member?_ofMembers, h, member?_ofMembers]

end Value

end Json

namespace Record

open Json Value

theorem lookup_known {α : Type} (name key : String) (write : α → Value) (a : Option α) :
    (known key write a).lookup name = if name == key then a.map write else none := by
  cases a with
  | none => simp [known]
  | some a =>
    rw [known, List.lookup_cons]
    cases name == key <;> rfl

/-! ## 3. Actions, results and records -/

/-- Two actions that are written alike are equal. -/
theorem Action.toJson_injective : Function.Injective Action.toJson := by
  intro action other h
  cases action <;> cases other <;> have hlookup := lookup_of_ofMembers h <;>
    simp only [List.lookup_append, List.lookup_cons, lookup_known] at hlookup
  case call.call kind sender gas input recipient value kind' sender' gas' input' recipient' value' =>
    have hkind : ofString kind.name = ofString kind'.name := by simpa using hlookup "callType"
    have hsender : ofAddress sender = ofAddress sender' := by simpa using hlookup "from"
    have hgas : gas.map ofQuantity = gas'.map ofQuantity := by simpa using hlookup "gas"
    have hinput : ofBytes input = ofBytes input' := by simpa using hlookup "input"
    have hrecipient : ofAddress recipient = ofAddress recipient' := by simpa using hlookup "to"
    have hvalue : value.map ofWord = value'.map ofWord := by simpa using hlookup "value"
    rw [FrameKind.name_injective (ofString_injective hkind), ofAddress_injective hsender,
      Option.map_injective ofQuantity_injective hgas, ofBytes_injective hinput,
      ofAddress_injective hrecipient, Option.map_injective ofWord_injective hvalue]
  case create.create creator gas init value kind creator' gas' init' value' kind' =>
    have hcreator : ofAddress creator = ofAddress creator' := by simpa using hlookup "from"
    have hgas : gas.map ofQuantity = gas'.map ofQuantity := by simpa using hlookup "gas"
    have hinit : ofBytes init = ofBytes init' := by simpa using hlookup "init"
    have hvalue : ofWord value = ofWord value' := by simpa using hlookup "value"
    have hkind : ofString kind.name = ofString kind'.name := by simpa using hlookup "creationMethod"
    rw [ofAddress_injective hcreator, Option.map_injective ofQuantity_injective hgas,
      ofBytes_injective hinit, ofWord_injective hvalue,
      FrameKind.name_injective (ofString_injective hkind)]
  case selfDestruct.selfDestruct address beneficiary balance address' beneficiary' balance' =>
    have haddress : ofAddress address = ofAddress address' := by simpa using hlookup "address"
    have hbeneficiary : ofAddress beneficiary = ofAddress beneficiary' := by
      simpa using hlookup "refundAddress"
    have hbalance : ofWord balance = ofWord balance' := by simpa using hlookup "balance"
    rw [ofAddress_injective haddress, ofAddress_injective hbeneficiary, ofWord_injective hbalance]
  -- Different shapes: a call has a call type, and a creation has init code.
  case call.create | call.selfDestruct | create.call | selfDestruct.call =>
    exact absurd (hlookup "callType") (by simp)
  case create.selfDestruct | selfDestruct.create => exact absurd (hlookup "init") (by simp)

/-- Two results that suit one action are equal if they are written alike. -/
theorem Result.eq_of_toJson {action : Action} {result other : Result} (hresult : result.Suits action)
    (hother : other.Suits action) (h : result.toJson = other.toJson) : result = other := by
  cases action <;> cases result <;> cases other <;> try contradiction
  case call.call.call gasUsed output gasUsed' output' =>
    have hlookup := lookup_of_ofMembers h
    simp only [List.lookup_append, lookup_known] at hlookup
    have hgasUsed : gasUsed.map ofQuantity = gasUsed'.map ofQuantity := by
      simpa using hlookup "gasUsed"
    have houtput : output.map ofBytes = output'.map ofBytes := by simpa using hlookup "output"
    rw [Option.map_injective ofQuantity_injective hgasUsed,
      Option.map_injective ofBytes_injective houtput]
  case create.create.create gasUsed address code gasUsed' address' code' =>
    have hlookup := lookup_of_ofMembers h
    simp only [List.lookup_append, lookup_known] at hlookup
    have hgasUsed : gasUsed.map ofQuantity = gasUsed'.map ofQuantity := by
      simpa using hlookup "gasUsed"
    have haddress : address.map ofAddress = address'.map ofAddress := by
      simpa using hlookup "address"
    have hcode : code.map ofBytes = code'.map ofBytes := by simpa using hlookup "code"
    rw [Option.map_injective ofQuantity_injective hgasUsed,
      Option.map_injective ofAddress_injective haddress,
      Option.map_injective ofBytes_injective hcode]

example : (Result.call none none).toJson = (Result.create none none none).toJson := rfl

/-- The record describes some frame. -/
def Described (record : Record) : Prop :=
  ∃ frame tx path isRoot, record = ofFrame frame tx path isRoot

/-- The result of the record of a frame goes with its action. -/
theorem Described.suits {record : Record} (h : record.Described) {result : Result}
    (hresult : record.result = some result) : result.Suits record.action := by
  obtain ⟨frame, tx, path, isRoot, rfl⟩ := h
  simp only [ofFrame] at hresult
  split at hresult
  · cases hresult
  · exact Result.suits_ofFrame? hresult

/-- Two records of frames that are written alike are equal. -/
theorem eq_of_toJson {record other : Record} (hrecord : record.Described)
    (hother : other.Described) (h : record.toJson = other.toJson) : record = other := by
  have hlookup := lookup_of_ofMembers h
  simp only [List.lookup_append, List.lookup_cons, lookup_known] at hlookup
  have haction : record.action = other.action :=
    Action.toJson_injective (by simpa using hlookup "action")
  have hblockHash : record.blockHash = other.blockHash :=
    Option.map_injective ofHash_injective (by simpa using hlookup "blockHash")
  have hblockNumber : record.blockNumber = other.blockNumber :=
    Option.map_injective ofNat_toNat_injective (by simpa using hlookup "blockNumber")
  have herror : record.error = other.error :=
    Option.map_injective ofString_injective (by simpa using hlookup "error")
  have hresult : record.result = other.result := by
    have hwritten : record.result.map Result.toJson = other.result.map Result.toJson := by
      simpa using hlookup "result"
    cases hfirst : record.result with
    | none =>
      rw [hfirst, Option.map_none, eq_comm, Option.map_eq_none_iff] at hwritten
      exact hwritten.symm
    | some result =>
      rw [hfirst, Option.map_some, eq_comm, Option.map_eq_some_iff] at hwritten
      obtain ⟨result', hsecond, hsame⟩ := hwritten
      have hsuits := hother.suits hsecond
      rw [← haction] at hsuits
      rw [hsecond, Result.eq_of_toJson hsuits (hrecord.suits hfirst) hsame]
  have hchildCount : record.childCount = other.childCount :=
    ofNat_injective (by simpa using hlookup "subtraces")
  have hpath : record.path = other.path :=
    List.map_injective_iff.mpr ofNat_injective (by simpa using hlookup "traceAddress")
  have htransactionHash : record.transactionHash = other.transactionHash :=
    Option.map_injective ofHash_injective (by simpa using hlookup "transactionHash")
  have hposition : record.transactionPosition = other.transactionPosition :=
    Option.map_injective ofNat_toNat_injective (by simpa using hlookup "transactionPosition")
  have hkind : record.kind = other.kind :=
    FrameKind.recordType_injective (ofString_injective (by simpa using hlookup "type"))
  have htime : record.time = other.time :=
    Option.map_injective ofDurationText_injective (by simpa using hlookup "time")
  cases record
  cases other
  simp_all

/-! ## 4. Lists of records -/

theorem eq_of_map_toJson {records others : List Record}
    (hrecords : ∀ record ∈ records, record.Described)
    (hothers : ∀ record ∈ others, record.Described)
    (h : records.map toJson = others.map toJson) : records = others := by
  induction records generalizing others with
  | nil => exact (List.map_eq_nil_iff.mp h.symm).symm
  | cons record records ih =>
    cases others with
    | nil => cases h
    | cons other others =>
      rw [List.forall_mem_cons] at hrecords hothers
      obtain ⟨hhead, htail⟩ := List.cons.inj h
      rw [eq_of_toJson hrecords.1 hothers.1 hhead, ih hrecords.2 hothers.2 htail]

/-- The text of a list of records of frames determines the records. -/
theorem renderAll_eq_iff {records others : List Record}
    (hrecords : ∀ record ∈ records, record.Described)
    (hothers : ∀ record ∈ others, record.Described) :
    renderAll records = renderAll others ↔ records = others := by
  refine ⟨fun h => ?_, fun h => h ▸ rfl⟩
  exact eq_of_map_toJson hrecords hothers (Value.array.inj (render_injective h))

/-- A call without output. -/
def silentCall : Record :=
  ofFrame { action := .call .call 1 2 [] (some 0) } none [0] false

/-- A creation of which nothing came. -/
def emptyCreation : Record :=
  ofFrame { action := .create .create 1 none [] 0 } none [0] false

/-- Two records are told apart by their text although their results are written alike. -/
theorem renderAll_silentCall_ne :
    silentCall.result.map Result.toJson = emptyCreation.result.map Result.toJson ∧
    renderAll [silentCall] ≠ renderAll [emptyCreation] := by
  refine ⟨rfl, fun h => ?_⟩
  rw [renderAll_eq_iff (by simpa using ⟨_, _, _, _, rfl⟩) (by simpa using ⟨_, _, _, _, rfl⟩)] at h
  exact absurd h (by decide)

end Record

end CallTree

import ToolCatalog.Descriptor.Export
import ToolCatalog.Value.Data

/-!
JSON values, and when two of them are equal.

`Value.isWire` says which values are written as JSON as they stand: members of an enumeration that
also count as texts or numbers are among them. The data that `Value.toData` gives always is.
-/
namespace ToolCatalog

namespace Value

mutual

/-- Whether a value consists of null, truth values, integers, floats, texts, lists, and dictionaries
with text keys. -/
def isWire : Value → Bool
  | .null | .bool _ | .int _ | .float _ | .text _ => true
  | .member _ _ kind _ => kind.jsonType?.isSome
  | .list items => areWire items
  | .dict entries => entriesAreWire entries
  | _ => false

def areWire : List Value → Bool
  | [] => true
  | v :: rest => v.isWire && areWire rest

def entriesAreWire : List (Value × Value) → Bool
  | [] => true
  | (k, v) :: rest => k.textual?.isSome && v.isWire && entriesAreWire rest

end

theorem areWire_iff {vs : List Value} : areWire vs = true ↔ ∀ v ∈ vs, v.isWire = true := by
  induction vs with
  | nil => simp [areWire]
  | cons v rest ih => simp [areWire, ih]

theorem texts_isWire (names : List String) : (texts names).isWire = true := by
  rw [texts, isWire, areWire_iff]
  simp [isWire]

theorem isNull_iff {v : Value} : v.isNull = true ↔ v = .null := by
  cases v <;> simp [isNull]

@[simp] theorem equal_text (s t : String) : (text s).equal (text t) = (t == s) := by
  simp [equal, textual?]

theorem isWire_of_textual? {v : Value} (h : v.textual?.isSome = true) : v.isWire = true := by
  cases v with
  | text s => rfl
  | member e n kind v => cases kind <;> first | rfl | cases h
  | _ => cases h

theorem putText_wire {key : String} {v : Value} (hv : v.isWire = true)
    {es : List (Value × Value)} (h : entriesAreWire es = true) :
    entriesAreWire (putText key v es) = true := by
  induction es with
  | nil => simp [putText, entriesAreWire, textual?, hv]
  | cons e rest ih =>
    simp only [entriesAreWire, Bool.and_eq_true] at h
    simp only [putText]
    split
    · simp [entriesAreWire, h, hv]
    · simp [entriesAreWire, h, ih h.2]

mutual

theorem toDataWithin_wire (room : Nat) (v : Value) {d : Value}
    (h : toDataWithin room v = .ok d) : d.isWire = true := by
  cases room with
  | zero =>
    rw [toDataWithin] at h
    cases h
  | succ room =>
    have hitems (items : List Value) (hall : ∀ {ds}, itemsToData room items = .ok ds →
        areWire ds = true) (h : (do return .list (← itemsToData room items) :
          Except DataFault Value) = .ok d) : d.isWire = true := by
      cases hi : itemsToData room items with
      | error f =>
        rw [hi] at h
        cases h
      | ok ds =>
        rw [hi] at h
        cases h
        exact hall hi
    cases v with
    | bytes bs =>
      rw [toDataWithin] at h
      cases hb : decodeBytes bs <;> rw [hb] at h <;> cases h
      rfl
    | list items => exact hitems items (itemsToData_wire room items) (by rwa [toDataWithin] at h)
    | tuple items => exact hitems items (itemsToData_wire room items) (by rwa [toDataWithin] at h)
    | set items => exact hitems items (itemsToData_wire room items) (by rwa [toDataWithin] at h)
    | frozenSet items =>
      exact hitems items (itemsToData_wire room items) (by rwa [toDataWithin] at h)
    | dict entries =>
      rw [toDataWithin] at h
      cases hi : entriesToData room entries [] with
      | error f =>
        rw [hi] at h
        cases h
      | ok ds =>
        rw [hi] at h
        cases h
        exact entriesToData_wire room entries [] rfl hi
    | member e n kind v =>
      rw [toDataWithin] at h
      exact toDataWithin_wire room v h
    | foreign _ =>
      rw [toDataWithin] at h
      cases h
    | endless =>
      rw [toDataWithin] at h
      cases h
    | _ =>
      rw [toDataWithin] at h
      cases h
      rfl

theorem itemsToData_wire (room : Nat) (vs : List Value) {ds : List Value}
    (h : itemsToData room vs = .ok ds) : areWire ds = true := by
  cases vs with
  | nil =>
    rw [itemsToData] at h
    cases h
    rfl
  | cons v rest =>
    rw [itemsToData] at h
    cases hv : toDataWithin room v with
    | error f =>
      rw [hv] at h
      cases h
    | ok d =>
      cases hr : itemsToData room rest with
      | error f =>
        rw [hv, hr] at h
        cases h
      | ok ds' =>
        rw [hv, hr] at h
        cases h
        rw [areWire, toDataWithin_wire room v hv, itemsToData_wire room rest hr]
        rfl

theorem entriesToData_wire (room : Nat) (es written : List (Value × Value))
    {ds : List (Value × Value)} (hw : entriesAreWire written = true)
    (h : entriesToData room es written = .ok ds) : entriesAreWire ds = true := by
  cases es with
  | nil =>
    rw [entriesToData] at h
    cases h
    exact hw
  | cons e rest =>
    obtain ⟨k, v⟩ := e
    rw [entriesToData] at h
    cases hk : keyText k with
    | error f =>
      rw [hk] at h
      cases h
    | ok key =>
      cases hv : toDataWithin room v with
      | error f =>
        rw [hk, hv] at h
        cases h
      | ok d =>
        rw [hk, hv] at h
        exact entriesToData_wire room rest _ (putText_wire (toDataWithin_wire room v hv) hw) h

end

/-- The data of a value is JSON. -/
theorem toData_wire {v d : Value} (h : v.toData = .ok d) : d.isWire = true :=
  toDataWithin_wire _ v h

/-! ## Equality -/

/-- The number that a value is in JSON, where truth values are no numbers. -/
def jsonNumber? : Value → Option Exact
  | .int i => some (.ofInt i)
  | .float x => some x.exact
  | .member e n kind v => Value.exact? (.member e n kind v)
  | _ => none

/-- Whether two values are the same text or the same number in JSON. -/
def sameScalar (v w : Value) : Bool :=
  (match v.textual?, w.textual? with
    | some s, some t => s == t
    | _, _ => false) ||
  (match v.jsonNumber?, w.jsonNumber? with
    | some x, some y => x.equal y
    | _, _ => false)

mutual

/-- Equality of JSON values: numbers by their value, dictionaries in any order. -/
def sameJson : Value → Value → Bool
  | .null, w => w.isNull
  | .bool b, .bool c => b == c
  | .list xs, .list ys => sameItems xs ys
  | .dict xs, .dict ys => xs.length == ys.length && sameEntries xs ys
  | v, w => sameScalar v w

def sameItems : List Value → List Value → Bool
  | [], [] => true
  | x :: xs, y :: ys => x.sameJson y && sameItems xs ys
  | _, _ => false

def sameEntries : List (Value × Value) → List (Value × Value) → Bool
  | [], _ => true
  | (k, v) :: xs, ys =>
    ys.any (fun (l, w) => sameScalar k l && v.sameJson w) && sameEntries xs ys

end

theorem sameJson_null (v : Value) : v.sameJson .null = v.isNull := by
  cases v <;> simp [sameJson, isNull, sameScalar, textual?, jsonNumber?]

theorem null_sameJson (v : Value) : Value.null.sameJson v = v.isNull := by
  simp [sameJson]

end Value

end ToolCatalog

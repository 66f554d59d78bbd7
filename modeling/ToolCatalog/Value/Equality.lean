import ToolCatalog.Value
import ToolCatalog.Value.Exact

/-!
When two values are equal.

Equality crosses kinds where the kinds describe one thing: numbers are compared by exact value
(so one, `true` and 1.0 are equal), moments by the instant they are, a member of a textual
enumeration equals its text, and a set equals the frozen set with the same members. Lists and tuples
never equal each other, and an opaque object equals only itself.
-/
namespace ToolCatalog.Value

/-- Whether a value can be a dictionary key or a member of a set: lists, sets and dictionaries
cannot, nor can anything that holds one, nor what may not be compared. -/
def hashable : Value → Bool
  | .list _ | .set _ | .dict _ | .endless => false
  | .decimal d => !d.signals
  | .tuple items => allHashable items
  | .member _ _ .plain _ | .member _ _ .flag _ => true
  | _ => true
where
  allHashable : List Value → Bool
    | [] => true
    | v :: rest => v.hashable && allHashable rest

mutual

/-- Equality of values. -/
def equal : Value → Value → Bool
  | .null, w => w.isNull
  | .bytes bs, .bytes cs => bs == cs
  | .list xs, .list ys => equalLists xs ys
  | .tuple xs, .tuple ys => equalLists xs ys
  | .set xs, .set ys | .set xs, .frozenSet ys => subset xs ys && xs.length == ys.length
  | .frozenSet xs, .set ys | .frozenSet xs, .frozenSet ys => subset xs ys && xs.length == ys.length
  | .dict xs, .dict ys => subsetEntries xs ys && xs.length == ys.length
  | .date s, .date t => s == t
  | .dateTime s, .dateTime t => s.same t
  | .time s, .time t => s.same t
  | .uuid s, .uuid t => s == t
  | .pattern s, .pattern t => s == t
  | .foreign i, .foreign j => i == j
  | .bool b, w => sameNumber (.bool b) w
  | .int i, w => sameNumber (.int i) w
  | .float s, w => sameNumber (.float s) w
  | .decimal s, w => sameNumber (.decimal s) w
  | .text s, w => w.textual? == some s
  | .member e n k v, .member f m l w =>
    (e == f && n == m)
      || sameNumber (.member e n k v) (.member f m l w)
      || sameText (.member e n k v) (.member f m l w)
  | .member e n k v, w => sameNumber (.member e n k v) w || sameText (.member e n k v) w
  | _, _ => false
where
  sameNumber (v w : Value) : Bool :=
    match v.exact?, w.exact? with
    | some x, some y => x.equal y
    | _, _ => false
  sameText (v w : Value) : Bool :=
    match v.textual?, w.textual? with
    | some s, some t => s == t
    | _, _ => false

def equalLists : List Value → List Value → Bool
  | [], [] => true
  | x :: xs, y :: ys => x.equal y && equalLists xs ys
  | _, _ => false

def subset : List Value → List Value → Bool
  | [], _ => true
  | x :: xs, ys => ys.any (x.equal ·) && subset xs ys

def subsetEntries : List (Value × Value) → List (Value × Value) → Bool
  | [], _ => true
  | (k, v) :: xs, ys => ys.any (fun (l, w) => k.equal l && v.equal w) && subsetEntries xs ys

end

/-- Whether some value of the list equals this one. -/
def memberOf (v : Value) (vs : List Value) : Bool :=
  vs.any v.equal

/-- Writes an entry: an equal key keeps its place and its spelling and takes the new value, a new
key goes to the end. -/
def putEntry (key value : Value) : List (Value × Value) → List (Value × Value)
  | [] => [(key, value)]
  | (k, v) :: rest => if k.equal key then (k, value) :: rest else (k, v) :: putEntry key value rest

/-- The dictionary written by these entries in order. -/
def ofEntries (entries : List (Value × Value)) : Value :=
  .dict (entries.foldl (fun acc (k, v) => putEntry k v acc) [])

end ToolCatalog.Value

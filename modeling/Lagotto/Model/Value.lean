/-
Lagotto.Model.Value — the Ruby values the code passes around untyped.

What the sources parse, what a form submits and what a serialised column
holds is a `Value`; typed columns are Lean types. Only the questions the
code asks of such a value are here: its truth in a condition (everything but
`nil` and `false`), `blank?`/`present?`, the two ways of reading a hash and the
one of writing it, `to_i`, and when two values are the same for a union. A
hash key is a symbol or a string and the two never meet, which is why
`result[:error]` does not see an `"error"` in a response body.
-/
import Mathlib.Data.List.Basic

namespace Lagotto

inductive Key where
  | sym (name : String)
  | str (name : String)
  deriving DecidableEq, Repr

inductive Value where
  | nil
  | bool (b : Bool)
  | int (n : Int)
  | float (x : Rat)
  | str (s : String)
  | arr (items : List Value)
  | hash (entries : List (Key × Value))
  deriving Repr

/-- The characters of Ruby's `[[:space:]]`. -/
def isSpace (c : Char) : Bool :=
  (0x09 ≤ c.toNat && c.toNat ≤ 0x0D) || (0x2000 ≤ c.toNat && c.toNat ≤ 0x200A) ||
    [0x20, 0x85, 0xA0, 0x1680, 0x2028, 0x2029, 0x202F, 0x205F, 0x3000].contains c.toNat

/-- `String#blank?`. -/
def blank (s : String) : Bool := s.toList.all isSpace

theorem not_blank_of_mem {s : String} {c : Char} (hc : c ∈ s.toList) (hspace : isSpace c = false) :
    blank s = false := by
  rw [blank, List.all_eq_false]
  exact ⟨c, hc, by simp [hspace]⟩

/-- `present?` on a nullable string column. -/
def present : Option String → Bool
  | none => false
  | some s => !blank s

@[simp] theorem present_none : present none = false := rfl

@[simp] theorem present_some (s : String) : present (some s) = !blank s := rfl

/-- `presence`. -/
def presence (s : Option String) : Option String := if present s then s else none

namespace Value

/-- Whether a condition takes the value for true. -/
def truthy : Value → Bool
  | nil => false
  | bool b => b
  | _ => true

@[simp] theorem truthy_nil : truthy nil = false := rfl

@[simp] theorem truthy_bool (b : Bool) : truthy (bool b) = b := rfl

@[simp] theorem truthy_str (s : String) : truthy (str s) = true := rfl

/-- `a || b`. -/
def orElse (a b : Value) : Value := if a.truthy then a else b

/-- `blank?`. -/
def isBlank : Value → Bool
  | nil => true
  | bool b => !b
  | int _ => false
  | float _ => false
  | str s => blank s
  | arr items => items.isEmpty
  | hash entries => entries.isEmpty

def isHash : Value → Bool
  | hash _ => true
  | _ => false

/-- `hash[key]`; anything but a hash is read as having no entries. -/
def get (v : Value) (k : Key) : Value :=
  match v with
  | hash entries => ((entries.find? (fun e => e.1 = k)).map Prod.snd).getD nil
  | _ => nil

/-- `hash.fetch(key, default)`. -/
def fetch (v : Value) (k : Key) (default : Value) : Value :=
  match v with
  | hash entries => ((entries.find? (fun e => e.1 = k)).map Prod.snd).getD default
  | _ => default

/-- `hash.deep_fetch(key, …) { default }`: the block answers for a path that
leaves the data. -/
def deepFetch (v : Value) (path : List Key) (default : Value) : Value :=
  match path with
  | [] => v
  | k :: rest =>
    match v with
    | hash entries =>
      match entries.find? (fun e => e.1 = k) with
      | some e => deepFetch e.2 rest default
      | none => default
    | _ => default

/-- `Array(value)`. -/
def toArray : Value → List Value
  | nil => []
  | arr items => items
  | v => [v]

/-- The leading digits of a string, as `String#to_i` reads them. -/
def digits (cs : List Char) : Int :=
  (cs.takeWhile Char.isDigit).foldl (fun n c => 10 * n + (c.toNat - 48 : Nat)) 0

/-- `to_i`: a missing value and a string without leading digits are 0, and a
fraction is cut off. -/
def toI : Value → Int
  | int n => n
  | float x => x.num.tdiv x.den
  | str s =>
    match s.toList.dropWhile isSpace with
    | '-' :: cs => - digits cs
    | '+' :: cs => digits cs
    | cs => digits cs
  | _ => 0

/-- `hash[key] = value`. -/
def set (v : Value) (k : Key) (x : Value) : Value :=
  match v with
  | hash entries =>
    if entries.any (fun e => e.1 = k) then
      hash (entries.map (fun e => if e.1 = k then (k, x) else e))
    else hash (entries ++ [(k, x)])
  | v => v

theorem isHash_iff {v : Value} : v.isHash = true ↔ ∃ entries, v = hash entries := by
  cases v <;> simp [isHash]

/-- What was stored is read back. -/
theorem get_set {v : Value} (h : v.isHash = true) (k : Key) (x : Value) :
    (v.set k x).get k = x := by
  obtain ⟨entries, rfl⟩ := isHash_iff.mp h
  unfold set
  dsimp only
  split
  next hold =>
    have hfind : entries.find? (fun e => decide (e.1 = k)) ≠ none := by
      intro hnone
      obtain ⟨e, he, hk⟩ := List.any_eq_true.mp hold
      exact List.find?_eq_none.mp hnone e he hk
    have hkeys : (fun e : Key × Value => decide (e.1 = k)) ∘
        (fun e => if e.1 = k then (k, x) else e) = fun e => decide (e.1 = k) := by
      funext e
      by_cases he : e.1 = k
      · simp [he]
      · simp [he]
    obtain ⟨e, he⟩ := Option.ne_none_iff_exists'.mp hfind
    have hk : e.1 = k := by simpa using List.find?_some he
    unfold get
    dsimp only
    rw [List.find?_map, hkeys, he]
    simp [hk]
  next hnew =>
    have hnone : entries.find? (fun e => decide (e.1 = k)) = none := by
      rw [List.find?_eq_none]
      intro e he hk
      exact hnew (List.any_eq_true.mpr ⟨e, he, hk⟩)
    simp [get, List.find?_append, hnone]

theorem isHash_set {v : Value} (h : v.isHash = true) (k : Key) (x : Value) :
    (v.set k x).isHash = true := by
  obtain ⟨entries, rfl⟩ := isHash_iff.mp h
  unfold set
  dsimp only
  split <;> rfl

mutual

/-- `eql?`: hashes are the same whatever order their entries are in. -/
def eql : Value → Value → Bool
  | nil, nil => true
  | bool a, bool b => a == b
  | int a, int b => a == b
  | float a, float b => a == b
  | str a, str b => a == b
  | arr as, arr bs => eqlItems as bs
  | hash as, hash bs => as.length == bs.length && eqlEntries as bs
  | _, _ => false

/-- Arrays, item by item. -/
def eqlItems : List Value → List Value → Bool
  | [], [] => true
  | a :: as, b :: bs => eql a b && eqlItems as bs
  | _, _ => false

/-- Every entry of the first hash is in the second. -/
def eqlEntries : List (Key × Value) → List (Key × Value) → Bool
  | [], _ => true
  | (k, a) :: as, bs =>
    (match bs.find? (fun e => e.1 = k) with
      | some e => eql a e.2
      | none => false) && eqlEntries as bs

end

/-- How a value is written to a boolean column: the database holds NULL and
false apart, but no condition of the application does. -/
def toBoolean : Value → Bool
  | bool b => b
  | int n => n == 1
  | str s => ["1", "t", "T", "true", "TRUE", "on", "ON"].contains s
  | _ => false

end Value

end Lagotto

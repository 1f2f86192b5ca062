/-!
# Ways to load a dictionary

A session loads a dictionary in one of three ways: *digested*, prepared once and shared;
*undigested*, prepared again for each frame; or as a *prefix*, plain history for a single frame.

## Main definitions

* `DictMode` — the three ways
* `DictMode.tag`, `DictMode.ofTag?` — their stable numbers
* `DictMode.name` — their names in messages
-/

namespace SharedDictionary

/-- How a session loads a dictionary. -/
inductive DictMode where
  | digested
  | undigested
  | prefixed
  deriving Repr, DecidableEq, Inhabited

namespace DictMode

/-- The number of a mode. -/
def tag : DictMode → Nat
  | digested => 0
  | undigested => 1
  | prefixed => 2

/-- The mode with a number. -/
def ofTag? : Nat → Option DictMode
  | 0 => some digested
  | 1 => some undigested
  | 2 => some prefixed
  | _ => none

theorem ofTag?_tag (m : DictMode) : ofTag? m.tag = some m := by cases m <;> rfl

theorem ofTag?_eq_some_iff {n : Nat} {m : DictMode} : ofTag? n = some m ↔ n = m.tag := by
  constructor
  · intro h
    match n, h with
    | 0, h | 1, h | 2, h => cases h; rfl
    | n + 3, h => cases h
  · rintro rfl
    exact ofTag?_tag m

theorem ofTag?_eq_none_iff {n : Nat} : ofTag? n = none ↔ 3 ≤ n := by
  match n with
  | 0 | 1 | 2 => exact iff_of_false nofun (by decide)
  | n + 3 => exact iff_of_true rfl (Nat.le_add_left 3 n)

/-- The name of a mode in messages. -/
def name : DictMode → String
  | digested => "digested"
  | undigested => "undigested"
  | prefixed => "prefix"

/-- The name of a mode in diagnostic text. -/
def diagnostic : DictMode → String
  | digested => "Digested"
  | undigested => "Undigested"
  | prefixed => "Prefix"

/-- What is said about a number that no mode has. -/
def unknownTagMessage (n : Nat) : String :=
  "No discriminant in enum `DictMode` matches the value `" ++ toString n ++ "`"

end DictMode

end SharedDictionary

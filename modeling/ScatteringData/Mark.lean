/-!
# Marks

Values that are equal need not be one and the same. A mark says when and where a value came to be,
and tells it apart from its equals.
-/

namespace ScatteringData

inductive Mark
  /-- A constant that exists once. -/
  | shared
  /-- Made at a moment of a run, at a place among all that was made then. -/
  | made (time : Nat) (place : List Nat)
  /-- Made by one copying out of the value with the given mark. -/
  | copied (copy : Nat) (source : Mark)
  /-- Made around another value, which has a mark of its own. -/
  | around (own content : Mark)
deriving DecidableEq, Repr

namespace Mark

instance : Inhabited Mark := ⟨shared⟩

def part (i : Nat) : Mark → Mark
  | made time place => made time (i :: place)
  | m => m

/-- The mark of the value that another one is made around. A copy is made around the same value. -/
def content : Mark → Mark
  | around _ m => m
  | copied _ m => m.content
  | m => m.part 0

@[simp] theorem content_copied (n : Nat) (m : Mark) : (copied n m).content = m.content := rfl

end Mark

end ScatteringData

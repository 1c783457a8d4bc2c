import Mathlib.Data.List.Basic

/- A sequence that is made of two others, each of which keeps its order. -/
namespace Interleaving
variable {α : Type}

inductive Interleaves : List α → List α → List α → Prop where
  | nil : Interleaves [] [] []
  | left {x : α} {l r both : List α} (rest : Interleaves l r both) :
      Interleaves (x :: l) r (x :: both)
  | right {x : α} {l r both : List α} (rest : Interleaves l r both) :
      Interleaves l (x :: r) (x :: both)

namespace Interleaves
variable {l r both l' r' both' : List α}

theorem of_left (l : List α) : Interleaves l [] l := by
  induction l with
  | nil => exact .nil
  | cons x l ih => exact .left ih

theorem of_right (r : List α) : Interleaves [] r r := by
  induction r with
  | nil => exact .nil
  | cons x r ih => exact .right ih

theorem append (first : Interleaves l r both) (second : Interleaves l' r' both') :
    Interleaves (l ++ l') (r ++ r') (both ++ both') := by
  induction first with
  | nil => exact second
  | left rest ih => exact .left ih
  | right rest ih => exact .right ih

end Interleaves
end Interleaving

import Deduce.Term.Operator

/-!
# Similarity of terms

Two terms are compared position by position (`Expr.similarityAs`): atoms agree or not, compound
terms agree as far as their arguments do on the average, provided that operator and number of
arguments are the same.  The score is computed in a type of one's choice (`Score`):
`Expr.similarity` is the score in floating-point numbers, where the mean adds from left to right,
and `Expr.exactSimilarity` the one in rational numbers.
-/

namespace Deduce

/-- A type of scores between no and full agreement, with means. -/
class Score (α : Type) where
  /-- No agreement. -/
  zero : α
  /-- Full agreement. -/
  one : α
  /-- The mean of the scores of the parts. -/
  mean : List α → α

instance : Score Float where
  zero := 0.0
  one := 1.0
  mean xs := xs.foldl (· + ·) 0.0 / Float.ofNat xs.length

instance : Score Rat where
  zero := 0
  one := 1
  mean xs := xs.foldl (· + ·) 0 / xs.length

namespace Expr

mutual

/-- How far two terms agree. -/
def similarityAs (α : Type) [Score α] : Expr → Expr → α
  | .app f (a :: as), .app g (b :: bs) =>
    if operator? (.app f (a :: as)) = operator? (.app g (b :: bs)) ∧ as.length = bs.length then
      Score.mean (similarityAs α a b :: similaritiesAs α as bs)
    else Score.zero
  | a, b => if a = b then Score.one else Score.zero

/-- How far the terms of two lists agree, position by position. -/
def similaritiesAs (α : Type) [Score α] : List Expr → List Expr → List α
  | a :: as, b :: bs => similarityAs α a b :: similaritiesAs α as bs
  | _, _ => []

end

/-- How far two terms agree, in floating-point numbers. -/
def similarity (a b : Expr) : Float := similarityAs Float a b

/-- How far two terms agree, in exact arithmetic. -/
def exactSimilarity (a b : Expr) : Rat := similarityAs Rat a b

end Expr

end Deduce

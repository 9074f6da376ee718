/-!
# Readers

A reader takes a phrase from the front of a list and gives back what it read and what follows.
It carries the proof that it consumes something, so a loop over readers ends.
-/

namespace Headline

/-- Takes something from the front of a list of `τ` and leaves a shorter list. -/
structure Reader (τ ε α : Type) where
  read : List τ → Except ε (α × List τ)
  shrinks : ∀ {s a rest}, read s = .ok (a, rest) → rest.length < s.length

end Headline

/-!
# Similarity of words

Whether two words are so alike that one may be meant by the other, by the Jaro measure: characters
match when they are equal and stand near each other, and matched characters in a different order
count half.
-/

namespace Scriptlet.Text

/-- Marks the first unmarked occurrence of a character at a position from `low` up to `high`. -/
def markMatch (c : Char) (low high : Nat) : Nat → List (Char × Bool) → Option (List (Char × Bool))
  | _, [] => none
  | position, (d, marked) :: rest =>
      if low ≤ position ∧ position < high ∧ c = d ∧ marked = false then
        some ((d, true) :: rest)
      else
        (markMatch c low high (position + 1) rest).map ((d, marked) :: ·)

/-- The characters that find a match, in order, and the other word with its matches marked. -/
def matchedWith (range : Nat) : Nat → List Char → List (Char × Bool) →
    List Char × List (Char × Bool)
  | _, [], other => ([], other)
  | position, c :: rest, other =>
      match markMatch c (position - range) (position + range + 1) 0 other with
      | some marked =>
          let (found, final) := matchedWith range (position + 1) rest marked
          (c :: found, final)
      | none => matchedWith range (position + 1) rest other

/-- The Jaro similarity of two words: the mean of the share of each word that is matched and of the
share of the matches that are in order, or zero without a match. -/
def similarity (word other : List Char) : Float :=
  let range := max word.length other.length / 2 - 1
  let (found, marked) := matchedWith range 0 word (other.map (·, false))
  let partner := (marked.filter Prod.snd).map Prod.fst
  let swapped := ((found.zip partner).filter fun (c, d) => c != d).length / 2
  if found.isEmpty then 0
  else (share found.length word.length + share found.length other.length
    + share (found.length - swapped) found.length) / 3
where
  share (part whole : Nat) : Float := part.toFloat / whole.toFloat

/-- Whether the Jaro similarity of two words is above seven tenths. -/
def areSimilar (word other : List Char) : Bool :=
  similarity word other > 0.7

end Scriptlet.Text

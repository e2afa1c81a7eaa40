import Neaten.Text.Basic

/-! # Letter case

    Lower case as far as a comparison with ASCII text can see it.  Besides
    `A` to `Z` only two characters have an ASCII letter in their lower case:
    the Kelvin sign, which becomes `k`, and the capital I with a dot, which
    becomes `i` and a combining dot.  Every other character becomes one or
    more characters outside ASCII, so leaving it as it is changes no equality,
    no ending and no occurrence of an ASCII text. -/

namespace Neaten

/-- The lower case of one character. -/
def lowerChar (c : Char) : Text :=
  if c = '\u212A' then ['k']
  else if c = '\u0130' then ['i', '\u0307']
  else [c.toLower]

namespace Text

/-- The lower case of a text. -/
def lower (t : Text) : Text := t.flatMap lowerChar

@[simp] theorem lower_nil : lower [] = [] := rfl

@[simp] theorem lower_cons (c : Char) (t : Text) : lower (c :: t) = lowerChar c ++ lower t := rfl

@[simp] theorem lower_append (s t : Text) : lower (s ++ t) = lower s ++ lower t := by
  simp [lower]

/-- Whether two texts are equal up to the case of ASCII letters. -/
def sameLetters (s t : Text) : Bool := s.map Char.toLower == t.map Char.toLower

end Text

end Neaten

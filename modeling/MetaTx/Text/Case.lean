/-!
# Lower case

Lower case as far as ASCII is concerned: besides the letters of ASCII, the Kelvin sign
is the one character that becomes a letter of ASCII.
-/

namespace MetaTx.Text

def kelvin : Char := '\u212a'

/-- The lower case of a letter of ASCII or of the Kelvin sign; other characters stay. -/
def lowerChar (c : Char) : Char := if c = kelvin then 'k' else c.toLower

def lower (cs : List Char) : List Char := cs.map lowerChar

/-- Whether a character differs from its lower case. -/
def isUpper (c : Char) : Bool := c.isUpper || c == kelvin

theorem lowerChar_of_not_isUpper {c : Char} (h : isUpper c = false) : lowerChar c = c := by
  obtain ⟨hupper, hkelvin⟩ := Bool.or_eq_false_iff.mp h
  rw [lowerChar, if_neg (ne_of_beq_false hkelvin)]
  exact dif_neg (of_decide_eq_false hupper)

theorem lower_of_not_isUpper {cs : List Char} (h : ∀ c ∈ cs, isUpper c = false) : lower cs = cs :=
  (List.map_congr_left fun c hc => lowerChar_of_not_isUpper (h c hc)).trans (List.map_id' cs)

end MetaTx.Text

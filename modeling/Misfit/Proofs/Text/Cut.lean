import Misfit.Text.Cut

/-! Cutting a text: how long the result is, and that cutting twice is cutting to the smaller
limit. -/

namespace Misfit

/-- A text within the limit stays as it is. -/
theorem cut_of_length_le {limit : Nat} {text : String} (within : text.length ≤ limit) :
    cut limit text = text :=
  -- The length is asked about first.
  if_pos within

/-- What is left of a text beyond the limit, and the dots that mark the cut. -/
theorem toList_cut_of_lt {limit : Nat} {text : String} (beyond : limit < text.length) :
    (cut limit text).toList =
      text.toList.take (limit - 3) ++ List.replicate (min limit 3) '.' := by
  -- Beyond the limit the text is cut, with three dots or as many as fit.
  rw [cut, if_neg (by omega), String.toList_ofList]

/-- A text beyond the limit is cut to as many characters as the limit says. -/
theorem length_cut_of_lt {limit : Nat} {text : String} (beyond : limit < text.length) :
    (cut limit text).length = limit := by
  -- The dots are as many as the characters that were given up for them.
  have kept : min (limit - 3) text.length = limit - 3 := by omega
  rw [← String.length_toList, toList_cut_of_lt beyond, List.length_append, List.length_take,
    List.length_replicate, String.length_toList, kept]
  omega

/-- A cut text has as many characters as the limit allows, or as the text had. -/
theorem length_cut (limit : Nat) (text : String) :
    (cut limit text).length = min limit text.length := by
  -- The text is cut to the limit, or stays within it.
  rcases Nat.lt_or_ge limit text.length with beyond | within
  · rw [length_cut_of_lt beyond, Nat.min_eq_left (by omega)]
  · rw [cut_of_length_le within, Nat.min_eq_right within]

/-- A cut to fewer characters finds nothing of the dots that an earlier cut put at the end, but puts
the same ones in their place. -/
theorem cut_cut_of_lt {limit first : Nat} {text : String} (less : limit < first)
    (beyond : first < text.length) : cut limit (cut first text) = cut limit text := by
  -- Both texts are cut to the limit, in front of the place of the first cut.
  have again : limit < (cut first text).length := by rwa [length_cut_of_lt beyond]
  have once : limit < text.length := by omega
  -- The characters that stay stand before the place where the first cut was made.
  have before : limit - 3 ≤ (text.toList.take (first - 3)).length := by
    rw [List.length_take, String.length_toList]
    omega
  have stays : (cut first text).toList.take (limit - 3) = text.toList.take (limit - 3) := by
    rw [toList_cut_of_lt beyond, List.take_append_of_le_length before, List.take_take,
      Nat.min_eq_left (by omega)]
  apply String.toList_inj.mp
  rw [toList_cut_of_lt again, toList_cut_of_lt once, stays]

/-- A text that is cut twice is as if cut once, to the smaller of the limits, and a cut text has
as many characters as its limit allows. -/
theorem cut_cut_and_length_cut (limit first : Nat) (text : String) :
    cut limit (cut first text) = cut (min limit first) text ∧
      (cut limit text).length = min limit text.length := by
  refine ⟨?_, length_cut limit text⟩
  rcases Nat.lt_or_ge first text.length with beyond | within
  · rcases Nat.lt_or_ge limit first with less | more
    · rw [cut_cut_of_lt less beyond, Nat.min_eq_left (by omega)]
    · -- What the first cut left is within the second limit.
      rw [cut_of_length_le (by rwa [length_cut_of_lt beyond]), Nat.min_eq_right more]
  · rw [cut_of_length_le within]
    -- The first limit is beyond the whole text, so it matters only if the second is, too.
    rcases Nat.le_total limit first with less | more
    · rw [Nat.min_eq_left less]
    · rw [Nat.min_eq_right more, cut_of_length_le within, cut_of_length_le (by omega)]

/-- Limits below three leave fewer dots, and a text that ends in dots is cut like any other. -/
example : cut 4 (cut 5 "ab...c") = "a..." ∧ cut 2 (cut 3 "ab...c") = ".." := by decide +kernel

end Misfit

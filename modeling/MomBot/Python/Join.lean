import Mathlib.Data.List.Infix
import Mathlib.Algebra.GroupWithZero.Nat

/-!
# `sep.join`

`sep.join(texts)` is `sep.intercalate texts`: as long as the texts and one separator less than
there are texts, and every text stands in it.
-/

namespace MomBot.Python

variable {text : String} {texts : List String}

theorem length_intercalate (sep : String) (h : texts ≠ []) :
    (sep.intercalate texts).length + sep.length =
      (texts.map fun text => text.length + sep.length).sum := by
  induction texts with
  | nil => exact absurd rfl h
  | cons text rest ih =>
      by_cases hrest : rest = []
      · subst hrest
        simp
      · rw [String.intercalate_cons_of_ne_nil hrest, String.length_append, String.length_append,
          List.map_cons, List.sum_cons, ← ih hrest]
        omega

theorem infix_intercalate (sep : String) (h : text ∈ texts) :
    text.toList <:+: (sep.intercalate texts).toList := by
  induction texts with
  | nil => exact absurd h List.not_mem_nil
  | cons first rest ih =>
      by_cases hrest : rest = []
      · subst hrest
        obtain rfl := List.mem_singleton.mp h
        rw [String.intercalate_singleton]
      · rw [String.intercalate_cons_of_ne_nil hrest, String.append_assoc, String.toList_append]
        rcases List.mem_cons.mp h with rfl | hmem
        · exact (List.prefix_append _ _).isInfix
        · apply (ih hmem).trans
          rw [String.toList_append]
          exact ((List.suffix_append _ _).trans (List.suffix_append _ _)).isInfix

end MomBot.Python

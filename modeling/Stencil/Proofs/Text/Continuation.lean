import Mathlib
import Stencil.Proofs.Text.Order

/-!
# The order of texts with something after them

Two texts that differ before either ends stay in order whatever is written after them. A text and
one that continues it need not: after both of them the same suffix is compared with the
continuation. So texts that ascend with a suffix ascend without it unless one of them continues
another by a text that comes before the suffix (`Text.ascending_iff_of_ascending_append`).
-/

namespace Stencil

namespace Text

variable {a b : String}

theorem append_lt_append_left_iff (common l l' : List UInt8) :
    common ++ l < common ++ l' ↔ l < l' := by
  induction common with
  | nil => rfl
  | cons byte rest ih =>
      rw [List.cons_append, List.cons_append, List.cons_lt_cons_iff, ih]
      exact ⟨fun h => h.elim (fun hlt => absurd hlt (UInt8.lt_irrefl byte)) And.right,
        fun h => .inr ⟨rfl, h⟩⟩

/-- Lists that differ before either ends stay in order whatever comes after them. -/
theorem append_lt_append_of_not_prefix {l l' : List UInt8} (h : l < l') (hstarts : ¬l <+: l')
    (more more' : List UInt8) : l ++ more < l' ++ more' := by
  induction h with
  | nil => exact absurd List.nil_prefix hstarts
  | rel hlt => exact .rel hlt
  | cons _ ih => exact .cons (ih fun h => hstarts ((List.prefix_cons_inj _).mpr h))

theorem bytes_append (a b : String) : bytes (a ++ b) = bytes a ++ bytes b := by
  unfold bytes
  rw [String.toByteArray_append, ByteArray.data_append, Array.toList_append]

/-- A text whose bytes start another is one that the other continues. -/
theorem exists_append_of_prefix (h : bytes a <+: bytes b) : ∃ more, b = a ++ more := by
  obtain ⟨rest, hrest⟩ := h
  have hencode : a.toList.utf8Encode ++ ⟨rest.toArray⟩ = b.toList.utf8Encode := by
    rw [String.utf8Encode_toList, String.utf8Encode_toList]
    refine ByteArray.ext (Array.toList_inj.mp ?_)
    rw [ByteArray.data_append, Array.toList_append]
    exact hrest
  obtain ⟨more, hmore⟩ := List.isPrefix_of_utf8Encode_append_eq_utf8Encode _ hencode
  refine ⟨String.ofList more, String.toList_inj.mp ?_⟩
  rw [String.toList_append, String.toList_ofList, hmore]

/-- What two texts share at their start does not decide which one precedes. -/
theorem precedes_append_left (a b c : String) : precedes (a ++ b) (a ++ c) = precedes b c := by
  rw [precedes, precedes, bytes_append, bytes_append]
  exact decide_eq_decide.mpr (append_lt_append_left_iff _ _ _)

theorem precedes_append_self (a : String) (h : b ≠ "") : precedes a (a ++ b) = true := by
  have hempty : precedes "" b = true := by
    refine decide_eq_true ?_
    cases hb : bytes b with
    | nil => exact absurd (bytes_injective (b := "") hb) h
    | cons byte rest => exact .nil
  rw [← precedes_append_left a, String.append_empty] at hempty
  exact hempty

/-- Texts of which the later one does not continue the other stay in order whatever is written after
them. -/
theorem precedes_append_of_not_continued (h : precedes a b = true) (hmore : ∀ more, b ≠ a ++ more)
    (c d : String) : precedes (a ++ c) (b ++ d) = true := by
  rw [precedes, decide_eq_true_iff] at h ⊢
  rw [bytes_append, bytes_append]
  refine append_lt_append_of_not_prefix h (fun hstarts => ?_) _ _
  obtain ⟨more, heq⟩ := exists_append_of_prefix hstarts
  exact hmore more heq

/-- Texts that ascend with a suffix ascend without it just if the suffix precedes, with itself
after them, all the texts by which one of them continues another. -/
theorem ascending_iff_of_ascending_append {texts : List String} {suffix : String}
    (h : Ascending (texts.map (· ++ suffix))) :
    Ascending texts ↔ ∀ text more, more ≠ "" → text ∈ texts → text ++ more ∈ texts →
      precedes suffix (more ++ suffix) = true := by
  have hsuffix : texts.Pairwise fun a b => precedes (a ++ suffix) (b ++ suffix) = true :=
    List.pairwise_map.mp h
  constructor
  · intro hascending text more hmore htext hcontinued
    -- Both orders arrange the same list, so they agree on any two of its texts.
    have hagree : ∀ a ∈ texts, ∀ b ∈ texts, precedes a b = true →
        precedes (a ++ suffix) (b ++ suffix) = true := by
      intro a ha b hb
      refine List.Pairwise.forall_of_forall_of_flip
        (R := fun a b => precedes a b = true → precedes (a ++ suffix) (b ++ suffix) = true)
        (fun a _ hself => absurd hself (not_precedes_self a)) ?_ ?_ ha hb
      · exact hsuffix.imp fun {a b} hab (_ : precedes a b = true) => hab
      · refine List.Pairwise.imp (fun hab hba => ?_) hascending
        exact absurd hba (not_precedes_of_precedes hab)
    have hprecedes := hagree text htext _ hcontinued (precedes_append_self text hmore)
    rwa [String.append_assoc, precedes_append_left] at hprecedes
  · intro hmore
    refine hsuffix.imp_of_mem fun {a b} ha hb hab => ?_
    by_contra hnot
    have hne : a ≠ b := fun heq => not_precedes_self _ (heq ▸ hab)
    refine not_precedes_of_precedes hab ?_
    by_cases hcontinued : ∃ more, a = b ++ more
    · obtain ⟨more, rfl⟩ := hcontinued
      have hempty : more ≠ "" := by
        rintro rfl
        exact hne String.append_empty
      rw [String.append_assoc, precedes_append_left]
      exact hmore b more hempty hb ha
    · exact precedes_append_of_not_continued (precedes_of_not_precedes hnot hne)
        (not_exists.mp hcontinued) _ _

end Text

end Stencil

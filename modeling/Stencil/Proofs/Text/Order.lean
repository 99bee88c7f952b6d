import Stencil.Text.Order

/-!
# Lists in the order of texts

`Text.precedes` compares any two different texts one way or the other. So the place where
`insertOrdered` puts a new key leaves ascending keys ascending, and `ordered` and `orderedSet` list
in ascending order what they are given.
-/

namespace Stencil.Text

variable {a b c : String}

theorem precedes_trans (hab : precedes a b = true) (hbc : precedes b c = true) :
    precedes a c = true := by
  rw [precedes, decide_eq_true_iff] at hab hbc ⊢
  exact List.lt_trans hab hbc

/-- Of two different texts one precedes the other. -/
theorem precedes_of_not_precedes (hab : ¬precedes a b = true) (hne : a ≠ b) :
    precedes b a = true := by
  rw [precedes, decide_eq_true_iff] at hab ⊢
  refine Decidable.byContradiction fun hba => hne (bytes_injective ?_)
  exact List.le_antisymm hba hab

theorem not_precedes_self (text : String) : ¬precedes text text = true := by
  rw [precedes, decide_eq_true_iff]
  exact List.lt_irrefl _

theorem not_precedes_of_precedes (hab : precedes a b = true) : ¬precedes b a = true :=
  fun hba => not_precedes_self a (precedes_trans hab hba)

/-- In strictly ascending order, so no text is there twice. -/
def Ascending (texts : List String) : Prop := texts.Pairwise (precedes · · = true)

theorem Ascending.nodup {texts : List String} (h : Ascending texts) : texts.Nodup := by
  refine h.imp fun {a b} hab heq => ?_
  subst heq
  exact not_precedes_self a hab

/-- A list in ascending order is settled by what is in it. -/
theorem Ascending.eq_of_mem_iff {texts texts' : List String} (h : Ascending texts)
    (h' : Ascending texts') (hmem : ∀ text, text ∈ texts ↔ text ∈ texts') : texts = texts' := by
  refine ((List.perm_ext_iff_of_nodup h.nodup h'.nodup).mpr hmem).eq_of_pairwise ?_ h h'
  intro a b _ _ hab hba
  exact absurd hba (not_precedes_of_precedes hab)

section

variable {α : Type} (key : String) (value : α)

theorem mem_keys_insertOrdered {entries : List (String × α)} {name : String} :
    name ∈ (insertOrdered key value entries).map Prod.fst ↔
      name = key ∨ name ∈ entries.map Prod.fst := by
  induction entries with
  | nil => simp [insertOrdered]
  | cons entry rest ih =>
      obtain ⟨k, v⟩ := entry
      rw [insertOrdered]
      split
      · simp
      · split
        · rename_i heq
          simp [heq]
        · rw [List.map_cons, List.mem_cons, ih, List.map_cons, List.mem_cons]
          exact or_left_comm

theorem Ascending.insertOrdered {entries : List (String × α)}
    (h : Ascending (entries.map Prod.fst)) :
    Ascending ((insertOrdered key value entries).map Prod.fst) := by
  induction entries with
  | nil => exact List.pairwise_singleton ..
  | cons entry rest ih =>
      obtain ⟨k, v⟩ := entry
      obtain ⟨hk, hrest⟩ := List.pairwise_cons.mp h
      rw [Text.insertOrdered]
      split
      -- The new key precedes the first one, and with it all the others.
      · rename_i hkey
        refine List.pairwise_cons.mpr ⟨fun name hname => ?_, h⟩
        obtain rfl | hname := List.mem_cons.mp hname
        · exact hkey
        · exact precedes_trans hkey (hk name hname)
      · rename_i hkey
        split
        · rename_i heq
          exact heq ▸ h
        -- The first key stays first: it precedes the others, and the new one too.
        · rename_i hne
          refine List.pairwise_cons.mpr ⟨fun name hname => ?_, ih hrest⟩
          obtain rfl | hname := (mem_keys_insertOrdered key value).mp hname
          · exact precedes_of_not_precedes hkey hne
          · exact hk name hname

variable (entries : List (String × α))

theorem mem_keys_ordered {name : String} :
    name ∈ (ordered entries).map Prod.fst ↔ name ∈ entries.map Prod.fst := by
  induction entries with
  | nil => rfl
  | cons entry rest ih =>
      rw [List.map_cons, List.mem_cons, ← ih]
      exact mem_keys_insertOrdered entry.1 entry.2

theorem ascending_keys_ordered : Ascending ((ordered entries).map Prod.fst) := by
  induction entries with
  | nil => exact .nil
  | cons entry rest ih => exact ih.insertOrdered entry.1 entry.2

end

theorem mem_orderedSet {texts : List String} : a ∈ orderedSet texts ↔ a ∈ texts := by
  rw [orderedSet, mem_keys_ordered, List.map_map]
  exact iff_of_eq (congrArg _ (List.map_id _))

theorem ascending_orderedSet (texts : List String) : Ascending (orderedSet texts) :=
  ascending_keys_ordered _

end Stencil.Text

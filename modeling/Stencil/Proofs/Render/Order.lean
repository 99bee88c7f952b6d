import Stencil.Render.Degradation

/-!
# The order of substitutions

`Degradation.inSourceOrder` lists substitutions by the places they are about and keeps the given
order among those at one place. These two properties, `pairwise_inSourceOrder` and
`startingAt_inSourceOrder`, determine the list (`eq_of_startingAt_eq`): how sorted lists go
together with concatenation is read off from them, not from the sorting algorithm.
-/

namespace Stencil

namespace Degradation

/-- The substitutions that are about the place `start`. -/
def startingAt (start : Nat) (ds : List Degradation) : List Degradation :=
  ds.filter fun d => d.span.start = start

/-- No substitution comes before one that is about an earlier place. -/
def InSourceOrder (ds : List Degradation) : Prop :=
  ds.Pairwise fun a b => a.span.start ≤ b.span.start

theorem perm_inSourceOrder (ds : List Degradation) : (inSourceOrder ds).Perm ds :=
  List.mergeSort_perm ds _

@[simp] theorem inSourceOrder_eq_nil {ds : List Degradation} : inSourceOrder ds = [] ↔ ds = [] :=
  ⟨fun h => (h ▸ perm_inSourceOrder ds).nil_eq.symm, fun h => by simp [h, inSourceOrder]⟩

/-- The comparison that sorts is a total preorder, which is all the library's laws ask for. -/
private theorem comparison_trans (a b c : Degradation)
    (hab : decide (a.span.start ≤ b.span.start) = true)
    (hbc : decide (b.span.start ≤ c.span.start) = true) :
    decide (a.span.start ≤ c.span.start) = true := by
  simp only [decide_eq_true_eq] at *
  exact Nat.le_trans hab hbc

private theorem comparison_total (a b : Degradation) :
    (decide (a.span.start ≤ b.span.start) || decide (b.span.start ≤ a.span.start)) = true := by
  simp only [Bool.or_eq_true, decide_eq_true_eq]
  exact Nat.le_total _ _

theorem pairwise_inSourceOrder (ds : List Degradation) : InSourceOrder (inSourceOrder ds) :=
  (List.pairwise_mergeSort comparison_trans comparison_total ds).imp of_decide_eq_true

/-- Sorting is stable. -/
theorem startingAt_inSourceOrder (start : Nat) (ds : List Degradation) :
    startingAt start (inSourceOrder ds) = startingAt start ds := by
  have hpair : (startingAt start ds).Pairwise fun a b => decide (a.span.start ≤ b.span.start) := by
    refine List.pairwise_of_forall_mem_list fun a ha b hb => ?_
    simp only [startingAt, List.mem_filter, decide_eq_true_eq] at ha hb ⊢
    omega
  have hsub : (startingAt start ds).Sublist (inSourceOrder ds) :=
    List.sublist_mergeSort comparison_trans comparison_total hpair List.filter_sublist
  have hfilter := hsub.filter fun d => decide (d.span.start = start)
  rw [startingAt, List.filter_filter] at hfilter
  simp only [Bool.and_self] at hfilter
  refine (hfilter.eq_of_length ?_).symm
  exact (((perm_inSourceOrder ds).filter _).length_eq).symm

theorem startingAt_cons_self (d : Degradation) (ds : List Degradation) :
    startingAt d.span.start (d :: ds) = d :: startingAt d.span.start ds :=
  List.filter_cons_of_pos (decide_eq_true rfl)

theorem head_le_of_startingAt_eq_cons {y x : Degradation} {ys xs : List Degradation} {start : Nat}
    (hy : InSourceOrder (y :: ys)) (h : startingAt start (y :: ys) = x :: xs) :
    y.span.start ≤ start := by
  have hx : x ∈ startingAt start (y :: ys) := h ▸ List.mem_cons_self ..
  simp only [startingAt, List.mem_filter, decide_eq_true_eq] at hx
  obtain ⟨hmem, rfl⟩ := hx
  rcases List.mem_cons.mp hmem with rfl | htail
  · exact Nat.le_refl _
  · exact List.rel_of_pairwise_cons hy htail

/-- Two sorted lists that agree at every place are the same. -/
theorem eq_of_startingAt_eq : ∀ {xs ys : List Degradation}, InSourceOrder xs → InSourceOrder ys →
    (∀ start, startingAt start xs = startingAt start ys) → xs = ys
  | [], [], _, _, _ => rfl
  | [], y :: ys, _, _, h => by
      have := h y.span.start
      rw [startingAt_cons_self] at this
      cases this
  | x :: xs, [], _, _, h => by
      have := h x.span.start
      rw [startingAt_cons_self] at this
      cases this
  | x :: xs, y :: ys, hx, hy, h => by
      -- Each head is somewhere in the other list, so neither can be about a later place.
      have hat := h x.span.start
      have hxy : x.span.start = y.span.start := Nat.le_antisymm
        (head_le_of_startingAt_eq_cons hx ((h y.span.start).trans (startingAt_cons_self y ys)))
        (head_le_of_startingAt_eq_cons hy (hat.symm.trans (startingAt_cons_self x xs)))
      rw [startingAt_cons_self, hxy, startingAt_cons_self] at hat
      obtain ⟨rfl, -⟩ := List.cons.inj hat
      have htail : ∀ start, startingAt start xs = startingAt start ys := fun start => by
        by_cases heq : x.span.start = start
        · subst heq
          exact (List.cons.inj hat).2
        · have hstart := h start
          rwa [startingAt, startingAt, List.filter_cons_of_neg (by simpa using heq),
            List.filter_cons_of_neg (by simpa using heq)] at hstart
      rw [eq_of_startingAt_eq (List.Pairwise.of_cons hx) (List.Pairwise.of_cons hy) htail]

/-! ## Sorting and concatenation -/

theorem startingAt_append (start : Nat) (xs ys : List Degradation) :
    startingAt start (xs ++ ys) = startingAt start xs ++ startingAt start ys :=
  List.filter_append ..

/-- What is about earlier places may be sorted by itself. -/
theorem inSourceOrder_append {xs ys : List Degradation}
    (h : ∀ x ∈ xs, ∀ y ∈ ys, x.span.start ≤ y.span.start) :
    inSourceOrder (xs ++ ys) = inSourceOrder xs ++ inSourceOrder ys := by
  refine eq_of_startingAt_eq (pairwise_inSourceOrder _) ?_ fun start => ?_
  · refine List.pairwise_append.mpr
      ⟨pairwise_inSourceOrder xs, pairwise_inSourceOrder ys, fun x hx y hy => ?_⟩
    exact h x ((perm_inSourceOrder xs).mem_iff.mp hx) y ((perm_inSourceOrder ys).mem_iff.mp hy)
  · simp only [startingAt_append, startingAt_inSourceOrder]

theorem inSourceOrder_congr {xs ys : List Degradation}
    (h : ∀ start, startingAt start xs = startingAt start ys) :
    inSourceOrder xs = inSourceOrder ys := by
  refine eq_of_startingAt_eq (pairwise_inSourceOrder xs) (pairwise_inSourceOrder ys) fun start => ?_
  rw [startingAt_inSourceOrder, startingAt_inSourceOrder, h start]

/-- Sorting the parts of a list first makes no difference. -/
theorem inSourceOrder_inSourceOrder_append (xs ys : List Degradation) :
    inSourceOrder (inSourceOrder xs ++ ys) = inSourceOrder (xs ++ ys) :=
  inSourceOrder_congr fun start => by
    rw [startingAt_append, startingAt_append, startingAt_inSourceOrder]

theorem inSourceOrder_append_inSourceOrder (xs ys : List Degradation) :
    inSourceOrder (xs ++ inSourceOrder ys) = inSourceOrder (xs ++ ys) :=
  inSourceOrder_congr fun start => by
    rw [startingAt_append, startingAt_append, startingAt_inSourceOrder]

end Degradation

end Stencil

import Stencil.Proofs.Render.Relocation
import Stencil.Proofs.Template.Join

/-!
# Renders of joined sources

A render carries nothing over from one part of a source to the next: the template of two joined
sources renders like the two one after the other (`Template.render_append`). The substitutions of
the second come after those of the first, since each is about a place in its own source
(`Spells.bounds_degradationsAll`), so the sorted warnings can be joined as well.
-/

namespace Stencil

/-! ## Joined forests -/

/-- A literal across the seam is shown in one piece, which comes to the same. -/
theorem perform_scriptAll_join (o : Options) (room : Nat) (scope : Scope)
    (before after : List Node) :
    perform o (Node.scriptAll (Node.join before after) room scope) =
      (perform o (Node.scriptAll before room scope)).andThen
        (perform o (Node.scriptAll after room scope)) := by
  fun_induction Node.join before after with
  | case1 after => exact (Yield.nothing_andThen _).symm
  | case2 a start _ b _ stop after =>
      have hmerge : (Action.emit (a ++ b)).yield o =
          ((Action.emit a).yield o).andThen ((Action.emit b).yield o) := rfl
      simp only [Node.scriptAll, Node.script, perform_append, perform_singleton, perform_nil,
        Yield.andThen_nothing, hmerge, Yield.andThen_assoc]
  | case3 after node before hmeet ih =>
      rw [Node.scriptAll, Node.scriptAll, perform_append, perform_append, ih, Yield.andThen_assoc]

/-- The substitutions of a forest are about places between its ends. -/
theorem Spells.bounds_degradationsAll {start stop : Nat} {segments : List Segment}
    {nodes : List Node} (h : Spells start segments nodes stop) :
    ∀ d ∈ Node.degradationsAll nodes, start ≤ d.span.start ∧ d.span.start ≤ stop := by
  have hmono := h.stop_eq
  induction h with
  | nil => exact fun _ hd => absurd hd List.not_mem_nil
  | text hmid hrest ih =>
      intro d hd
      have := ih hrest.stop_eq d hd
      omega
  | interpolation hread hmid hrest ih =>
      intro d hd
      rcases List.mem_cons.mp hd with rfl | hd
      · exact ⟨Nat.le_refl _, by simp only; omega⟩
      · have := ih hrest.stop_eq d hd
        omega
  | @block start bodyStart bodyStop mid stop inner inner' kind path bodySegments segments body nodes
      hopen hstart hbody hclose hmid hrest ihbody ih =>
      intro d hd
      have hbodyStop := hbody.stop_eq
      have hstop := hrest.stop_eq
      have hpath := Marker.utf8ByteSize_le_of_read hopen
      -- The place of the block itself is that of its subject, which lies in the opener.
      have hafter : d ∈ Node.degradationsAll nodes → start ≤ d.span.start ∧ d.span.start ≤ stop :=
        fun hd => by
          have := ih hstop d hd
          omega
      have hinside : d ∈ Node.degradationsAll body → start ≤ d.span.start ∧ d.span.start ≤ stop :=
        fun hd => by
          have := ihbody hbodyStop d hd
          omega
      rw [Node.degradationsAll] at hd
      cases kind with
      | conditional | negation => exact (List.mem_append.mp hd).elim hinside hafter
      | iteration =>
          rcases List.mem_append.mp hd with hd | hd
          · rcases List.mem_cons.mp hd with rfl | hd
            · simp only
              omega
            · exact hinside hd
          · exact hafter hd

/-! ## Reports -/

namespace Yield

/-- Where the substitutions of one part all come before those of the other, nothing is left to be
sorted. -/
theorem report_andThen_of_le {a b : Yield}
    (h : ∀ x ∈ a.degradations, ∀ y ∈ b.degradations, x.span.start ≤ y.span.start) :
    (a.andThen b).report = (do
      let r ← a.report
      let r' ← b.report
      pure ⟨r.output ++ r'.output, r.warnings ++ r'.warnings⟩) := by
  have hsorted := Degradation.inSourceOrder_append h
  rw [← Degradation.inSourceOrder_inSourceOrder_append,
    ← Degradation.inSourceOrder_append_inSourceOrder] at hsorted
  rw [report_andThen]
  cases ha : a.report with
  | error e => rfl
  | ok r =>
      cases hb : b.report with
      | error e => rfl
      | ok r' =>
          show Except.ok _ = Except.ok _
          rw [warnings_of_report ha, warnings_of_report hb, hsorted]

end Yield

/-- Two sources that compile, and that meet in no pair of braces, compile together. The whole
renders as the first and then the second: it fails as the first that fails, shows the one output
after the other, and warns of the substitutions of both, those of the second further on. -/
theorem Template.render_append {source source' : String} {t t' : Template}
    (h : Template.compile source = .ok t) (h' : Template.compile source' = .ok t')
    (hseam : ¬(source.toList.getLast? = some '\x7b' ∧ source'.toList.head? = some '\x7b')) :
    ∃ whole, Template.compile (source ++ source') = .ok whole ∧
      ∀ context options name, (whole.render context options name).result = (do
        let r ← (t.render context options name).result
        let r' ← (t'.render context options name).result
        pure ⟨r.output ++ r'.output,
          r.warnings ++ r'.warnings.map (Degradation.shift source.utf8ByteSize)⟩) := by
  refine ⟨_, Template.compile_append h h' hseam, fun context options name => ?_⟩
  obtain ⟨hspells, -⟩ := Template.spells_of_compile h
  have hmoved : perform options (Node.scriptAll (Node.shiftAll source.utf8ByteSize t'.nodes)
      options.maxDepth (.ofContext context)) =
      { t'.yield context options with
        degradations := (t'.yield context options).degradations.map
          (Degradation.shift source.utf8ByteSize) } := by
    rw [Node.scriptAll_shiftAll]
    exact perform_map_shift options source.utf8ByteSize _
  have horder : ∀ x ∈ (t.yield context options).degradations,
      ∀ y ∈ (t'.yield context options).degradations.map (Degradation.shift source.utf8ByteSize),
        x.span.start ≤ y.span.start := by
    intro x hx y hy
    obtain ⟨d, -, rfl⟩ := List.mem_map.mp hy
    exact Nat.le_trans
      (hspells.bounds_degradationsAll x (Template.mem_degradationsAll hx)).2 (Nat.le_add_left ..)
  simp only [Template.result_render]
  rw [Template.yield, perform_scriptAll_join, hmoved, ← Template.yield,
    Yield.report_andThen_of_le horder, Yield.report_map_shift]
  cases (t.yield context options).report with
  | error e => rfl
  | ok r => cases (t'.yield context options).report <;> rfl

/-- A brace at the end of the first source stays text, and two literals meet. -/
theorem Template.render_append_brace :
    ∃ whole, Template.compile ("\x7b\x7ba\x7d\x7dü\x7b" ++ "x\x7b\x7bb\x7d\x7d") = .ok whole ∧
      (whole.render .empty {} none).result =
        .ok ⟨"ü\x7bx", [⟨.missing, "a", ⟨0, 5⟩⟩, ⟨.missing, "b", ⟨9, 14⟩⟩]⟩ := by
  have h : Template.compile "\x7b\x7ba\x7d\x7dü\x7b" = .ok ⟨"\x7b\x7ba\x7d\x7dü\x7b",
      [.interpolation "a" ⟨0, 5⟩, .literal "ü\x7b" ⟨5, 8⟩]⟩ := by
    cbv
  have h' : Template.compile "x\x7b\x7bb\x7d\x7d" = .ok ⟨"x\x7b\x7bb\x7d\x7d",
      [.literal "x" ⟨0, 1⟩, .interpolation "b" ⟨1, 6⟩]⟩ := by
    cbv
  obtain ⟨whole, hwhole, hrender⟩ := Template.render_append h h' (by decide)
  exact ⟨whole, hwhole, (hrender .empty {} none).trans (by cbv)⟩

end Stencil

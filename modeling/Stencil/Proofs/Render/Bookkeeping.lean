import Stencil.Proofs.Render.Order
import Stencil.Proofs.Render.Script

/-!
# The books of a render

A render goes into a block and out of it in pairs, and it stops at the first error. What it keeps
account of, its depth and its substitutions, does not depend on that: requests may come in any order
and go on after a refusal (`RenderState.serveAll`). A request is granted or refused by what the
books say (`Request.enter_apply`, `Request.exit_apply`, `Request.degrade_apply`), a refusal changes
nothing, and the books always tell of just the requests that were granted
(`RenderState.Accounts`). `RenderState.serveAll_keeps_account` is about all requests after any
others, with limits up to the greatest that can be asked for.
-/

namespace Stencil

/-! ## Requests -/

/-- What a construct of a template asks for on its way through a render. -/
inductive Request where
  | enter
  | exit
  | missing (path : String) (span : Span)
  | notIterable (path : String) (span : Span)
  deriving Repr, DecidableEq

namespace Request

def action : Request → Render Unit
  | enter => Render.advance Progress.enter
  | exit => Render.advance fun p => .ok p.exit
  | missing path span => Render.emitMissing path span
  | notIterable path span => Render.advance (·.notIterable path span)

/-- The substitution that is asked for. -/
def degradation? : Request → Option Degradation
  | enter => none
  | exit => none
  | missing path span => some ⟨.missing, path, span⟩
  | notIterable path span => some ⟨.notIterable, path, span⟩

variable {s : RenderState}

theorem enter_apply (s : RenderState) :
    enter.action s =
      if s.progress.depth < s.progress.options.maxDepth then
        .ok () (s.atDepth (s.progress.depth + 1))
      else .error (.tooDeep s.progress.options.maxDepth) s := by
  by_cases hlt : s.progress.depth < s.progress.options.maxDepth
  · rw [action, if_pos hlt, Render.advance_enter_of_lt hlt]
  · rw [action, if_neg hlt, Render.advance_enter_of_not_lt hlt]

theorem exit_apply (s : RenderState) :
    exit.action s = .ok () (s.atDepth (s.progress.depth - 1)) := by
  rw [action, Render.advance_apply]
  rfl

/-- Both kinds of substitution are refused or recorded alike. -/
theorem degrade_apply {r : Request} {d : Degradation} (h : r.degradation? = some d)
    (s : RenderState) :
    r.action s =
      if s.progress.options.strict then .error (.ofDegradation d) s
      else .ok () (s.after ⟨s.progress.options.filler d, [d], none⟩) := by
  cases r with
  | enter => cases h
  | exit => cases h
  | missing path span =>
      obtain rfl := Option.some.inj h
      rw [action, Render.emitMissing_apply, Progress.missing, Progress.degrade]
      by_cases hstrict : s.progress.options.strict = true
      · rw [if_pos hstrict, if_pos hstrict]
        rfl
      · rw [if_neg hstrict, if_neg hstrict]
        simp [Except.map, RenderState.after, Options.filler]
  | notIterable path span =>
      obtain rfl := Option.some.inj h
      rw [action, Render.advance_apply, Progress.notIterable, Progress.degrade]
      by_cases hstrict : s.progress.options.strict = true
      · rw [if_pos hstrict, if_pos hstrict]
      · rw [if_neg hstrict, if_neg hstrict]
        simp [RenderState.after, Options.filler]

end Request

/-! ## One request after the other -/

namespace RenderState

/-- The state after a request, whether it is granted or refused. -/
def serve (s : RenderState) (r : Request) : RenderState :=
  match r.action s with
  | .ok _ s => s
  | .error _ s => s

theorem serve_of_ok {s s' : RenderState} {r : Request} (h : r.action s = .ok () s') :
    s.serve r = s' := by
  rw [serve, h]

theorem serve_of_error {s s' : RenderState} {r : Request} {e : RenderError}
    (h : r.action s = .error e s') : s.serve r = s' := by
  rw [serve, h]

def serveAll (s : RenderState) (requests : List Request) : RenderState :=
  requests.foldl serve s

/-- The options are as they were, the depth is within their limit, and what is recorded is what was
asked for, unless the options are strict. -/
structure Accounts (options : Options) (requests : List Request) (s : RenderState) : Prop where
  options_eq : s.progress.options = options
  depth_le : s.progress.depth ≤ options.maxDepth
  degradations_eq : s.progress.degradations =
    if options.strict then [] else requests.filterMap Request.degradation?

variable {options : Options} {requests : List Request} {s : RenderState}

theorem accounts_start (options : Options) (name : Option String) (scope : Scope)
    (output : String) : Accounts options [] ⟨scope, .start options name, output⟩ :=
  ⟨rfl, Nat.zero_le _, (ite_self []).symm⟩

theorem Accounts.serve (h : Accounts options requests s) (r : Request) :
    Accounts options (requests ++ [r]) (s.serve r) := by
  obtain ⟨hoptions, hdepth, hdegradations⟩ := h
  cases hr : r.degradation? with
  | none =>
      have hrecorded : (requests ++ [r]).filterMap Request.degradation? =
          requests.filterMap Request.degradation? := by simp [hr]
      rw [← hrecorded] at hdegradations
      cases r with
      | enter =>
          have henter := Request.enter_apply s
          by_cases hlt : s.progress.depth < s.progress.options.maxDepth
          · rw [serve_of_ok (henter.trans (if_pos hlt))]
            exact ⟨hoptions, hoptions ▸ hlt, hdegradations⟩
          · rw [serve_of_error (henter.trans (if_neg hlt))]
            exact ⟨hoptions, hdepth, hdegradations⟩
      | exit =>
          rw [serve_of_ok (Request.exit_apply s)]
          exact ⟨hoptions, (Nat.sub_le _ _).trans hdepth, hdegradations⟩
      | missing path span => cases hr
      | notIterable path span => cases hr
  | some d =>
      have hdegrade := Request.degrade_apply hr s
      rw [hoptions] at hdegrade
      by_cases hstrict : options.strict = true
      · rw [serve_of_error (hdegrade.trans (if_pos hstrict))]
        rw [if_pos hstrict] at hdegradations
        exact ⟨hoptions, hdepth, hdegradations.trans (if_pos hstrict).symm⟩
      · rw [serve_of_ok (hdegrade.trans (if_neg hstrict))]
        rw [if_neg hstrict] at hdegradations
        refine ⟨hoptions, hdepth, ?_⟩
        rw [if_neg hstrict, List.filterMap_append, ← hdegradations]
        simp [after, hr]

theorem Accounts.serveAll (h : Accounts options requests s) (more : List Request) :
    Accounts options (requests ++ more) (s.serveAll more) := by
  induction more generalizing requests s with
  | nil => rwa [List.append_nil]
  | cons r rest ih =>
      rw [List.append_cons]
      exact ih (h.serve r)

/-! ## What the books say of the next request -/

theorem Accounts.enter_eq_error_iff (h : Accounts options requests s) :
    Request.enter.action s = .error (.tooDeep options.maxDepth) s ↔
      s.progress.depth = options.maxDepth := by
  have henter := Request.enter_apply s
  rw [h.options_eq] at henter
  constructor
  · intro hrefused
    by_contra hroom
    rw [if_pos (Nat.lt_of_le_of_ne h.depth_le hroom), hrefused] at henter
    cases henter
  · intro hfull
    exact henter.trans (if_neg (Nat.not_lt.mpr hfull.ge))

theorem Accounts.enter_of_ne (h : Accounts options requests s)
    (hroom : s.progress.depth ≠ options.maxDepth) :
    Request.enter.action s = .ok () (s.atDepth (s.progress.depth + 1)) ∧
      s.progress.depth < options.maxDepth := by
  have hlt := Nat.lt_of_le_of_ne h.depth_le hroom
  have henter := Request.enter_apply s
  rw [h.options_eq] at henter
  exact ⟨henter.trans (if_pos hlt), hlt⟩

theorem exit_of_depth_eq_zero (h : s.progress.depth = 0) : Request.exit.action s = .ok () s := by
  rw [Request.exit_apply]
  have hsame : s.progress.depth - 1 = s.progress.depth := by omega
  exact congrArg (fun depth => EStateM.Result.ok () (s.atDepth depth)) hsame

theorem Accounts.degrade_of_strict (h : Accounts options requests s)
    (hstrict : options.strict = true) {r : Request} {d : Degradation}
    (hr : r.degradation? = some d) : r.action s = .error (.ofDegradation d) s := by
  rw [Request.degrade_apply hr, h.options_eq, if_pos hstrict]

theorem Accounts.degrade_of_lenient (h : Accounts options requests s)
    (hstrict : options.strict = false) {r : Request} {d : Degradation}
    (hr : r.degradation? = some d) :
    r.action s = .ok () (s.after ⟨options.filler d, [d], none⟩) := by
  have hlenient : ¬options.strict = true := by simp [hstrict]
  rw [Request.degrade_apply hr, h.options_eq, if_neg hlenient]

/-- What is shown of a path that is missing is the default value. -/
theorem Accounts.missing_of_lenient (h : Accounts options requests s)
    (hstrict : options.strict = false) (path : String) (span : Span) :
    s.progress.missing path span = .ok (options.defaultValue,
      (s.after ⟨options.defaultValue, [⟨.missing, path, span⟩], none⟩).progress) := by
  have hlenient : ¬s.progress.options.strict = true := by simp [h.options_eq, hstrict]
  rw [Progress.missing, Progress.degrade, if_neg hlenient, h.options_eq]
  simp [Except.map, after, h.options_eq]

/-- Whatever has been asked for before, a block is refused exactly at the limit, and counting one
further never leaves the range of a limit; coming out of no block changes nothing. A strict render
refuses every substitution and records none; a lenient one records each as it is asked for, shows
the default value for what is missing, and stays where it is. The warnings are what is recorded, by
place, and in the order recorded where the place is the same. -/
theorem serveAll_keeps_account (options : Options) (hlimit : options.maxDepth < Options.depthLimit)
    (name : Option String) (scope : Scope) (output : String) (requests : List Request) :
    let s := serveAll ⟨scope, .start options name, output⟩ requests
    let depth := s.progress.depth
    let recorded := s.progress.degradations
    let warnings := s.progress.warnings
    depth ≤ options.maxDepth ∧
    (Request.enter.action s = .error (.tooDeep options.maxDepth) s ↔ depth = options.maxDepth) ∧
    (depth ≠ options.maxDepth →
      Request.enter.action s = .ok () (s.atDepth (depth + 1)) ∧ depth + 1 < Options.depthLimit) ∧
    (depth = 0 → Request.exit.action s = .ok () s) ∧
    (depth ≠ 0 → Request.exit.action s = .ok () (s.atDepth (depth - 1))) ∧
    (options.strict = true →
      recorded = [] ∧
      ∀ path span, (Request.missing path span).action s = .error (.missing path) s ∧
        (Request.notIterable path span).action s = .error (.notIterable path) s) ∧
    (options.strict = false →
      recorded = requests.filterMap Request.degradation? ∧
      ∀ path span,
        (∃ s', (Request.missing path span).action s = .ok () s' ∧
          s.progress.missing path span = .ok (options.defaultValue, s'.progress) ∧
          s'.output = s.output ++ options.defaultValue ∧ s'.progress.depth = depth ∧
          s'.progress.degradations = recorded ++ [⟨.missing, path, span⟩]) ∧
        ∃ s', (Request.notIterable path span).action s = .ok () s' ∧
          s'.output = s.output ∧ s'.progress.depth = depth ∧
          s'.progress.degradations = recorded ++ [⟨.notIterable, path, span⟩]) ∧
    warnings.Perm recorded ∧ Degradation.InSourceOrder warnings ∧
    ∀ start, Degradation.startingAt start warnings = Degradation.startingAt start recorded := by
  intro s depth recorded warnings
  have h : Accounts options requests s :=
    (accounts_start options name scope output).serveAll requests
  refine ⟨h.depth_le, h.enter_eq_error_iff, ?_, exit_of_depth_eq_zero,
    fun _ => Request.exit_apply s, ?_, ?_, Degradation.perm_inSourceOrder _,
    Degradation.pairwise_inSourceOrder _,
    fun start => Degradation.startingAt_inSourceOrder start _⟩
  · intro hroom
    obtain ⟨henter, hlt⟩ := h.enter_of_ne hroom
    exact ⟨henter, Nat.lt_of_le_of_lt hlt hlimit⟩
  · intro hstrict
    refine ⟨h.degradations_eq.trans (if_pos hstrict), ?_⟩
    intro path span
    exact ⟨h.degrade_of_strict hstrict (r := .missing path span) rfl,
      h.degrade_of_strict hstrict (r := .notIterable path span) rfl⟩
  · intro hstrict
    refine ⟨h.degradations_eq.trans (if_neg (by simp [hstrict])), ?_⟩
    intro path span
    have hmissing := h.degrade_of_lenient hstrict (r := .missing path span) rfl
    have hnotIterable := h.degrade_of_lenient hstrict (r := .notIterable path span) rfl
    exact ⟨⟨_, hmissing, h.missing_of_lenient hstrict path span, rfl, rfl, rfl⟩,
      ⟨_, hnotIterable, String.append_empty, rfl, rfl⟩⟩

/-- Coming out of a block before there is one, a second block where one is allowed, and three
substitutions about two places. Where no block is allowed the first is refused, and the greatest
limit of all can be counted up to. -/
theorem serveAll_keeps_account_unbalanced :
    let options : Options := { maxDepth := 1, defaultValue := "?" }
    let started (options : Options) := serveAll ⟨.ofContext ⟨[]⟩, .start options none, ""⟩
    let b : Span := ⟨4, 8⟩
    let c : Span := ⟨9, 14⟩
    let requests := [Request.exit, .enter, .enter, .missing "c" c, .notIterable "b" b,
      .missing "d" c]
    let s := started options requests
    let closed := started { maxDepth := 0, strict := true } requests
    let vast := started { maxDepth := 0xFFFFFFFFFFFFFFFF } []
    options.maxDepth < Options.depthLimit ∧
    s.progress.depth = 1 ∧ Request.enter.action s = .error (.tooDeep 1) s ∧
    s.progress.degradations = [⟨.missing, "c", c⟩, ⟨.notIterable, "b", b⟩, ⟨.missing, "d", c⟩] ∧
    s.progress.warnings.Perm s.progress.degradations ∧
    Degradation.startingAt 9 s.progress.warnings = [⟨.missing, "c", c⟩, ⟨.missing, "d", c⟩] ∧
    Request.enter.action closed = .error (.tooDeep 0) closed ∧ closed.progress.degradations = [] ∧
    Request.enter.action vast = .ok () (vast.atDepth 1) := by
  intro options started b c requests s closed vast
  obtain ⟨-, hfull, -, -, -, -, hlenient, hperm, -, hstable⟩ :=
    serveAll_keeps_account options (by decide) none (.ofContext ⟨[]⟩) "" requests
  obtain ⟨-, hclosed, -, -, -, hstrict, -⟩ := serveAll_keeps_account
    { maxDepth := 0, strict := true } (by decide) none (.ofContext ⟨[]⟩) "" requests
  obtain ⟨-, -, hopen, -⟩ := serveAll_keeps_account { maxDepth := 0xFFFFFFFFFFFFFFFF } (by decide)
    none (.ofContext ⟨[]⟩) "" []
  refine ⟨by decide, rfl, hfull.mpr rfl, (hlenient rfl).1, hperm, ?_, hclosed.mpr rfl,
    (hstrict rfl).1, (hopen (by decide)).1⟩
  exact (hstable 9).trans rfl

end RenderState

end Stencil

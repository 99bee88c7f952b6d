import Stencil.Proofs.Render.Unrolling

/-!
# Scopes as environments

A scope is pushed and popped as loops go round, and a path is looked up frame by frame. Both have a
plain meaning. The frames of a scope are those of its pushes that no later pop takes off
(`ScopeCall.standing`), which counting tells: a frame stays as long as no stretch of calls after it
pops more than it pushes. And looking a path up in the frames is looking it up in the one map that
arises when each frame in turn, the outermost first, writes its names over those of the context
(`Context.environment`). Only the names of loop state, which no environment holds, are a matter of
the innermost frame alone. `Scope.resolves_afterCalls` states both for all calls and all paths.
-/

namespace Stencil

/-! ## Calls -/

/-- What is done to a scope between lookups. -/
inductive ScopeCall where
  | push (frame : LoopFrame)
  | pop

namespace ScopeCall

def pushes : List ScopeCall → Nat
  | [] => 0
  | push _ :: calls => pushes calls + 1
  | pop :: calls => pushes calls

def pops : List ScopeCall → Nat
  | [] => 0
  | push _ :: calls => pops calls
  | pop :: calls => pops calls + 1

/-- A frame outlives the calls after it if no stretch of them, from the first one on, has more pops
than pushes. -/
def Outlived (calls : List ScopeCall) : Prop :=
  ∀ stretch, stretch <+: calls → pops stretch ≤ pushes stretch

instance (calls : List ScopeCall) : Decidable (Outlived calls) :=
  decidable_of_iff (∀ stretch ∈ calls.inits, pops stretch ≤ pushes stretch)
    (forall_congr' fun stretch => imp_congr_left (List.mem_inits stretch calls))

/-- The frames that are pushed and not popped, in the order of their pushes. -/
def standing : List ScopeCall → List LoopFrame
  | [] => []
  | push frame :: calls => if Outlived calls then frame :: standing calls else standing calls
  | pop :: calls => standing calls

/-- How many frames from before the calls are popped by them, if there are so many. -/
def owed : List ScopeCall → Nat
  | [] => 0
  | push _ :: calls => owed calls - 1
  | pop :: calls => owed calls + 1

theorem owed_le_iff (calls : List ScopeCall) (n : Nat) :
    owed calls ≤ n ↔ ∀ stretch, stretch <+: calls → pops stretch ≤ pushes stretch + n := by
  induction calls generalizing n with
  | nil => simp [owed, pops]
  | cons call calls ih =>
      have hstretches : (∀ stretch, stretch <+: call :: calls → pops stretch ≤ pushes stretch + n) ↔
          ∀ rest, rest <+: calls → pops (call :: rest) ≤ pushes (call :: rest) + n := by
        constructor
        · intro h rest hrest
          exact h _ ((List.prefix_cons_inj call).mpr hrest)
        · intro h stretch hstretch
          rcases List.prefix_cons_iff.mp hstretch with rfl | ⟨rest, rfl, hrest⟩
          · exact Nat.zero_le _
          · exact h rest hrest
      rw [hstretches]
      cases call with
      | push frame =>
          have howed : owed (push frame :: calls) ≤ n ↔ owed calls ≤ n + 1 := by
            rw [owed]
            omega
          rw [howed, ih]
          refine forall_congr' fun rest => imp_congr_right fun _ => ?_
          rw [pops, pushes]
          omega
      | pop =>
          rw [owed]
          constructor
          · intro h rest hrest
            have hcount := (ih (n - 1)).mp (by omega) rest hrest
            rw [pops, pushes]
            omega
          · intro h
            -- The pop by itself is a stretch that owes one frame.
            have hpop := h [] List.nil_prefix
            have howed : owed calls ≤ n - 1 := by
              refine (ih (n - 1)).mpr fun rest hrest => ?_
              have hcount := h rest hrest
              rw [pops, pushes] at hcount
              omega
            simp only [pops, pushes] at hpop
            omega

theorem outlived_iff (calls : List ScopeCall) : Outlived calls ↔ owed calls = 0 := by
  rw [← Nat.le_zero, owed_le_iff]
  exact Iff.rfl

end ScopeCall

namespace Scope

def call (s : Scope) : ScopeCall → Scope
  | .push frame => s.push frame
  | .pop => s.pop

def afterCalls (context : Context) (calls : List ScopeCall) : Scope :=
  calls.foldl call (.ofContext context)

theorem context_foldl_call (s : Scope) (calls : List ScopeCall) :
    (calls.foldl call s).context = s.context := by
  induction calls generalizing s with
  | nil => rfl
  | cons first calls ih =>
      rw [List.foldl_cons, ih]
      cases first <;> rfl

/-- The standing frames of the calls are on top of what their pops have left of the scope. -/
theorem loops_foldl_call (s : Scope) (calls : List ScopeCall) :
    (calls.foldl call s).loops =
      (ScopeCall.standing calls).reverse ++ s.loops.drop (ScopeCall.owed calls) := by
  induction calls generalizing s with
  | nil => rfl
  | cons first calls ih =>
      rw [List.foldl_cons, ih]
      cases first with
      | pop =>
          have hpop : (s.call .pop).loops = s.loops.tail := rfl
          rw [ScopeCall.standing, ScopeCall.owed, hpop, List.drop_tail]
      | push frame =>
          have hpush : (s.call (.push frame)).loops = frame :: s.loops := rfl
          rw [ScopeCall.standing, ScopeCall.owed, hpush]
          by_cases hstays : ScopeCall.Outlived calls
          · rw [if_pos hstays, (ScopeCall.outlived_iff calls).mp hstays, List.reverse_cons,
              List.append_assoc]
            rfl
          · have howed : ScopeCall.owed calls ≠ 0 := mt (ScopeCall.outlived_iff calls).mpr hstays
            obtain ⟨n, hn⟩ := Nat.exists_eq_succ_of_ne_zero howed
            rw [if_neg hstays, hn, List.drop_succ_cons, Nat.succ_sub_one]

/-- A pop at the root does nothing, so what is left of the bare context is nothing more. -/
theorem afterCalls_eq (context : Context) (calls : List ScopeCall) :
    afterCalls context calls = ⟨context, (ScopeCall.standing calls).reverse⟩ := by
  have hcontext : (afterCalls context calls).context = context := context_foldl_call _ calls
  have hloops : (afterCalls context calls).loops = (ScopeCall.standing calls).reverse := by
    rw [afterCalls, loops_foldl_call, ofContext, List.drop_nil, List.append_nil]
  generalize afterCalls context calls = s at hcontext hloops ⊢
  subst hcontext
  rw [← hloops]

end Scope

/-! ## The environment of a scope -/

/-- The context with the names of each frame, the outermost first, written over it: the fields of
the element, and after them `this`. -/
def Context.environment (c : Context) (frames : List LoopFrame) : Context :=
  frames.foldl (fun c frame => (c.overlay frame.item.fields).insert "this" frame.item) c

theorem Context.environment_concat (c : Context) (frames : List LoopFrame) (frame : LoopFrame) :
    c.environment (frames ++ [frame]) =
      ((c.environment frames).overlay frame.item.fields).insert "this" frame.item :=
  List.foldl_concat ..

theorem LoopFrame.lookup?_of_not_isReserved (frame : LoopFrame) {name : String}
    (h : Path.isReserved name = false) :
    frame.lookup? name = if name = "this" then some frame.item else frame.item.field? name := by
  have hne : ∀ reserved, Path.isReserved reserved = true → name ≠ reserved := by
    rintro reserved hreserved rfl
    rw [h] at hreserved
    cases hreserved
  rw [lookup?, if_neg (hne "@index" (by decide)), if_neg (hne "@first" (by decide)),
    if_neg (hne "@last" (by decide)), if_neg (hne "@length" (by decide))]

namespace Scope

variable (c : Context)

theorem outward?_eq_get?_environment (loops : List LoopFrame) {name : String}
    (h : Path.isReserved name = false) :
    outward? ⟨c, loops⟩ name = (c.environment loops.reverse).get? name := by
  induction loops with
  | nil => rfl
  | cons frame outer ih =>
      rw [List.reverse_cons, Context.environment_concat, Context.get?_insert,
        Context.get?_overlay, ← ih, ← Value.field?_eq]
      rw [outward?, outward?, List.findSome?_cons, frame.lookup?_of_not_isReserved h]
      by_cases hthis : name = "this"
      · rw [if_pos hthis, if_pos hthis]
        rfl
      · rw [if_neg hthis, if_neg hthis]
        cases frame.item.field? name <;> rfl

theorem innermost?_this (loops : List LoopFrame) :
    innermost? ⟨c, loops⟩ "this" = (c.environment loops.reverse).get? "this" := by
  cases loops with
  | nil => rfl
  | cons frame outer =>
      rw [List.reverse_cons, Context.environment_concat, Context.get?_insert, if_pos rfl]
      rfl

/-- A path is looked up in the frames as it is in their environment. -/
theorem resolve?_eq_getPath?_environment (loops : List LoopFrame) {path : String}
    (h : Path.isReserved path = false) :
    resolve? ⟨c, loops⟩ path = (c.environment loops.reverse).getPath? (Path.segments path) := by
  rw [resolve?, h, Bool.false_or]
  by_cases hthis : path = "this"
  · subst hthis
    have hsegments : Path.segments "this" = ["this"] := by decide
    rw [if_pos (decide_eq_true rfl), innermost?_this, hsegments, Context.getPath?]
    exact (Option.bind_fun_some _).symm
  · rw [if_neg (by rwa [decide_eq_true_iff])]
    cases hsegments : Path.segments path with
    | nil => rfl
    | cons first rest =>
        have hfirst := Path.isReserved_of_segments hsegments h
        rw [Context.getPath?, ← outward?_eq_get?_environment c loops hfirst]

theorem resolve?_of_isReserved (s : Scope) {path : String} (h : Path.isReserved path = true) :
    s.resolve? path = s.innermost? path := by
  rw [resolve?, h, Bool.true_or, if_pos rfl]

/-- After any calls a scope holds its context and the frames that were pushed and not popped. A path
is looked up in their environment, from segment to segment. A name of loop state is a matter of the
innermost frame: four of these names tell how far the loop is, and any other is a field of the
element, as a whole; outside of loops it is a name of the context. -/
theorem resolves_afterCalls (context : Context) (calls : List ScopeCall) :
    let s := afterCalls context calls
    let frames := ScopeCall.standing calls
    s.context = context ∧ s.loops.reverse = frames ∧ s.depth = frames.length + 1 ∧
    (∀ path, Path.isReserved path = false →
      s.resolve? path = (context.environment frames).getPath? (Path.segments path)) ∧
    (frames = [] → ∀ path, Path.isReserved path = true → s.resolve? path = context.get? path) ∧
    ∀ frame, frames.getLast? = some frame →
      s.resolve? "@index" = some (.number (.ofNat frame.index)) ∧
      s.resolve? "@first" = some (.bool (frame.index = 0)) ∧
      s.resolve? "@last" = some (.bool (frame.index + 1 = frame.length)) ∧
      s.resolve? "@length" = some (.number (.ofNat frame.length)) ∧
      ∀ path, Path.isReserved path = true → path ∉ ["@index", "@first", "@last", "@length"] →
        s.resolve? path = frame.item.field? path := by
  intro s frames
  have hs : s = ⟨context, frames.reverse⟩ := afterCalls_eq context calls
  rw [hs]
  refine ⟨rfl, List.reverse_reverse frames, ?_, fun path hpath => ?_, fun hframes path hpath => ?_,
    fun frame hframe => ?_⟩
  · rw [depth, List.length_reverse]
  · rw [resolve?_eq_getPath?_environment context _ hpath, List.reverse_reverse]
  · rw [resolve?_of_isReserved _ hpath, hframes]
    rfl
  · have hinnermost : ∀ path, Path.isReserved path = true →
        resolve? ⟨context, frames.reverse⟩ path = frame.lookup? path := by
      intro path hpath
      obtain ⟨outer, houter⟩ := List.getLast?_eq_some_iff.mp hframe
      rw [resolve?_of_isReserved _ hpath, houter, List.reverse_concat]
      rfl
    refine ⟨hinnermost _ (by decide), hinnermost _ (by decide), hinnermost _ (by decide),
      hinnermost _ (by decide), fun path hpath hother => ?_⟩
    have hthis : path ≠ "this" := by
      rintro rfl
      exact absurd hpath (by decide)
    simp only [List.mem_cons, List.not_mem_nil, or_false, not_or] at hother
    obtain ⟨hindex, hfirst, hlast, hlength⟩ := hother
    rw [hinnermost path hpath, LoopFrame.lookup?, if_neg hthis, if_neg hindex, if_neg hfirst,
      if_neg hlast, if_neg hlength]

/-- The null of the inner element hides the map outside, its field with the name of loop state is
not seen, and the reserved field of the outer element is out of reach. -/
theorem resolves_afterCalls_shadowed :
    let outer : LoopFrame :=
      ⟨.map [("name", .map [("first", .string "B")]), ("@key", .string "k")], 0, 2⟩
    let inner : LoopFrame :=
      ⟨.map [("name", .null), ("@index", .string "i"), ("", .bool true)], 1, 3⟩
    let context : Context := ⟨[("@key", .string "r"), ("title", .map [("", .map [("de", .null)])])]⟩
    let calls : List ScopeCall :=
      [.pop, .push outer, .push ⟨.string "x", 0, 1⟩, .pop, .push inner]
    ScopeCall.standing calls = [outer, inner] ∧
      (afterCalls context calls).depth = 3 ∧
      (afterCalls context calls).resolve? "name.first" = none ∧
      (afterCalls context calls).resolve? "this.name" = some .null ∧
      (afterCalls context calls).resolve? "title..de" = some .null ∧
      (afterCalls context calls).resolve? "" = some (.bool true) ∧
      (afterCalls context calls).resolve? "@index" = some (.number (.ofNat 1)) ∧
      (afterCalls context calls).resolve? "@last" = some (.bool false) ∧
      (afterCalls context calls).resolve? "@key" = none ∧
      (afterCalls context [.push outer, .pop, .pop]).resolve? "@key" = some (.string "r") := by
  intro outer inner context calls
  have hstanding : ScopeCall.standing calls = [outer, inner] := rfl
  obtain ⟨-, -, hdepth, hpaths, -, hinnermost⟩ := resolves_afterCalls context calls
  obtain ⟨hindex, -, hlast, -, hother⟩ := hinnermost inner rfl
  have hroot := (resolves_afterCalls context [.push outer, .pop, .pop]).2.2.2.2.1
  exact ⟨hstanding, hdepth, hpaths _ (by decide), hpaths _ (by decide), hpaths _ (by decide),
    hpaths _ (by decide), hindex, hlast, hother _ (by decide) (by decide),
    hroot rfl _ (by decide)⟩

end Scope

end Stencil

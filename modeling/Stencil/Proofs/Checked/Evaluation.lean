import Stencil.Proofs.Checked.Survey
import Stencil.Proofs.Render.Script

/-!
# A checked evaluation

A render on a stack of frames: the context at the bottom and the frame of each loop under way above
it, addressed by their places. Taking the topmost frame, walking a path, going into a block and
pushing a frame are all checked. A scope is the stack from the top downward (`Scope.frames`), and as
long as the frames are in bounds a checked evaluation comes to what the render comes to and leaves
the stack as it was (`Agrees`); each construct keeps to that if its body does (`Follows`).

`every_check_passes` puts the checked runs together: whatever the source, the data and the options,
none of them fails a check.
-/

namespace Stencil

namespace Checked

/-! ## The stack -/

inductive Frame where
  | root (context : Context)
  | loop (frame : LoopFrame)
  deriving Repr

/-- What a frame knows under a name. Whether an element is the last is found by counting one
further, which must not go beyond the number of elements. -/
def Frame.lookup? (name : String) : Frame → Option (Option Value)
  | root context => some (context.get? name)
  | loop frame =>
    if name = "@last" then do
      let next ← next? frame.length frame.index
      some (some (.bool (next = frame.length)))
    else some (frame.lookup? name)

/-- The topmost frame. -/
def innermost? (frames : List Frame) : Option Frame := do
  let last ← less? frames.length 1
  frames[last]?

/-- What the topmost frame that knows a name has for it. -/
def outward? (frames : List Frame) (name : String) : Option (Option Value) :=
  frames.reverse.findSomeM? (Frame.lookup? name)

/-- The elements from the place `start` on. -/
def suffix? {α : Type} (xs : List α) (start : Nat) : Option (List α) :=
  if start ≤ xs.length then some (xs.drop start) else none

theorem length_of_suffix? {α : Type} {xs rest : List α} {start : Nat}
    (h : suffix? xs start = some rest) : rest.length = xs.length - start := by
  obtain ⟨-, hrest⟩ := Option.ite_none_right_eq_some.mp h
  obtain rfl := Option.some.inj hrest
  exact List.length_drop

/-- The value reached through nested maps. -/
def walk? (value : Value) (path : List String) : Option (Option Value) :=
  if _hempty : path.isEmpty then some (some value)
  else
    match value with
    | .map fields => do
      let first ← path[0]?
      match _hrest : suffix? path 1 with
      | none => none
      | some rest =>
        match Bindings.get? fields first with
        | none => some none
        | some value => walk? value rest
    | _ => some none
termination_by path.length
decreasing_by
  have hrest := length_of_suffix? _hrest
  have hpos : path.length ≠ 0 := fun h => _hempty (List.isEmpty_iff_length_eq_zero.mpr h)
  omega

def resolve? (frames : List Frame) (path : String) : Option (Option Value) :=
  if Path.isReserved path || path = "this" then do
    let frame ← innermost? frames
    frame.lookup? path
  else
    match Path.segments path with
    | [] => some none
    | first :: rest => do
      match ← outward? frames first with
      | none => some none
      | some head => if rest.isEmpty then some (some head) else walk? head rest

/-- One more frame, of an element that there is. -/
def push? (frames : List Frame) (frame : LoopFrame) : Option (List Frame) :=
  if frame.index < frame.length then some (frames ++ [.loop frame]) else none

/-- Without the topmost frame. The last one stays. -/
def pop (frames : List Frame) : List Frame :=
  if 1 < frames.length then frames.dropLast else frames

/-! ## The evaluation -/

structure Machine where
  frames : List Frame
  progress : Progress
  output : String
  deriving Repr

/-- A part of a checked render. It has no result where a check fails; an error of the render is a
result, and leaves the machine as it was reached. -/
abbrev Evaluation := ExceptT RenderError (StateT Machine Option)

namespace Evaluation

def resolve (path : String) : Evaluation (Option Value) := do
  let m ← get
  resolve? m.frames path

/-- A step of the progress that shows a text. -/
def write (step : Progress → Except RenderError (String × Progress)) : Evaluation Unit := do
  let m ← get
  match step m.progress with
  | .ok (text, progress) => set { m with progress, output := m.output ++ text }
  | .error e => throw e

/-- Goes into the body of a block. -/
def enter : Evaluation Unit := do
  let m ← get
  let limit := m.progress.options.maxDepth
  if m.progress.depth < limit then do
    let depth ← next? limit m.progress.depth
    set { m with progress := { m.progress with depth } }
  else throw (.tooDeep limit)

def nested (body : Evaluation Unit) : Evaluation Unit := do
  enter
  body
  write fun p => .ok ("", p.exit)

def inFrame (frame : LoopFrame) (body : Evaluation Unit) : Evaluation Unit := fun m => do
  let frames ← push? m.frames frame
  let (result, m) ← body { m with frames }
  some (result, { m with frames := pop m.frames })

def interpolate (path : String) (span : Span) : Evaluation Unit := do
  let missing := write fun p => p.missing path span
  match ← resolve path with
  | some value => if value.isNull then missing else write fun p => .ok (value.render, p)
  | none => missing

def conditional (subject : Reference) (expected : Bool) (body : Evaluation Unit) :
    Evaluation Unit := do
  let truthy := ((← resolve subject.path).map Value.isTruthy).getD false
  if truthy = expected then nested body

def iteration (subject : Reference) (body : Evaluation Unit) : Evaluation Unit := do
  match ← resolve subject.path with
  | some (.list []) => pure ()
  | some (.list items) => nested ((Render.framesOf items).forM (inFrame · body))
  | _ => write fun p => (p.notIterable subject.path subject.span).map ("", ·)

def block (kind : BlockKind) (subject : Reference) (body : Evaluation Unit) : Evaluation Unit :=
  match kind with
  | .conditional => conditional subject true body
  | .negation => conditional subject false body
  | .iteration => iteration subject body

mutual

def node : Node → Evaluation Unit
  | .literal text _ => write fun p => .ok (text, p)
  | .interpolation path span => interpolate path span
  | .block kind subject body _ => block kind subject (nodes body)

def nodes : List Node → Evaluation Unit
  | [] => pure ()
  | first :: rest => do
    node first
    nodes rest

end

end Evaluation

def render? (t : Template) (context : Context) (options : Options) (name : Option String) :
    Option (Outcome RenderError Report) := do
  let (result, m) ← Evaluation.nodes t.nodes ⟨[.root context], .start options name, ""⟩
  match result with
  | .ok _ => some ⟨.ok ⟨m.output, m.progress.warnings⟩, m.progress.events⟩
  | .error e => some ⟨.error e, m.progress.events⟩

end Checked

/-! ## Scopes as stacks -/

/-- The frames of a scope, from the context upward. -/
def Scope.frames (s : Scope) : List Checked.Frame :=
  .root s.context :: s.loops.reverse.map .loop

/-- Every loop under way is at an element that there is. -/
def Scope.InBounds (s : Scope) : Prop := ∀ frame ∈ s.loops, frame.index < frame.length

theorem Scope.InBounds.push {s : Scope} {frame : LoopFrame} (h : s.InBounds)
    (hframe : frame.index < frame.length) : (s.push frame).InBounds :=
  List.forall_mem_cons.mpr ⟨hframe, h⟩

theorem Scope.frames_push (s : Scope) (frame : LoopFrame) :
    (s.push frame).frames = s.frames ++ [.loop frame] := by
  simp [frames, push]

/-- The frames of a loop are in bounds. -/
theorem Render.index_lt_of_mem_framesOf {items : List Value} {frame : LoopFrame}
    (h : frame ∈ Render.framesOf items) : frame.index < frame.length := by
  obtain ⟨⟨item, index⟩, hmem, rfl⟩ := List.mem_map.mp h
  exact (List.mem_zipIdx' hmem).1

namespace Checked

variable {s : Scope}

theorem push?_frames {frame : LoopFrame} (hframe : frame.index < frame.length) :
    push? s.frames frame = some (s.push frame).frames := by
  rw [push?, if_pos hframe, s.frames_push]

theorem pop_frames_push (frame : LoopFrame) : pop (s.push frame).frames = s.frames := by
  have hlength : 1 < (s.frames ++ [Frame.loop frame]).length := by simp [Scope.frames]
  rw [s.frames_push, pop, if_pos hlength, List.dropLast_concat]

theorem lookup?_loop {frame : LoopFrame} (hframe : frame.index < frame.length) (name : String) :
    (Frame.loop frame).lookup? name = some (frame.lookup? name) := by
  rw [Frame.lookup?]
  by_cases hlast : name = "@last"
  · subst hlast
    rw [if_pos rfl, next?_eq_some hframe]
    rfl
  · rw [if_neg hlast]

theorem walk?_eq (path : List String) : ∀ value : Value,
    walk? value path = some (value.getPath? path) := by
  induction path with
  | nil =>
      intro value
      unfold walk?
      rfl
  | cons name rest ih =>
      intro value
      unfold walk?
      cases value with
      | map fields =>
          cases hfield : Bindings.get? fields name with
          | none => simp [suffix?, Value.getPath?, Value.field?, hfield]
          | some field => simp [suffix?, Value.getPath?, Value.field?, hfield, ih]
      | null | bool | number | string | list => rfl

theorem innermost?_bind (h : s.InBounds) (name : String) :
    (innermost? s.frames).bind (Frame.lookup? name) = some (s.innermost? name) := by
  obtain ⟨context, loops⟩ := s
  cases loops with
  | nil => rfl
  | cons frame outer =>
      have hinnermost :
          innermost? (Scope.frames ⟨context, frame :: outer⟩) = some (.loop frame) := by
        simp [innermost?, Scope.frames, less?]
      rw [hinnermost, Option.bind_some, lookup?_loop (h frame (List.mem_cons_self ..))]
      rfl

theorem findSomeM?_lookup? {loops : List LoopFrame}
    (h : ∀ frame ∈ loops, frame.index < frame.length) (context : Context) (name : String) :
    (loops.map Frame.loop ++ [Frame.root context]).findSomeM? (Frame.lookup? name) =
      some ((loops.findSome? (·.lookup? name)).or (context.get? name)) := by
  induction loops with
  | nil =>
      have hroot : (Frame.root context).lookup? name = some (context.get? name) := rfl
      rw [List.map_nil, List.nil_append, List.findSomeM?, hroot, List.findSome?_nil]
      cases context.get? name <;> rfl
  | cons frame outer ih =>
      obtain ⟨hframe, houter⟩ := List.forall_mem_cons.mp h
      rw [List.map_cons, List.cons_append, List.findSomeM?, lookup?_loop hframe, ih houter,
        List.findSome?_cons]
      cases frame.lookup? name <;> rfl

theorem outward?_eq (h : s.InBounds) (name : String) :
    outward? s.frames name = some (s.outward? name) := by
  have hframes : s.frames.reverse = s.loops.map Frame.loop ++ [Frame.root s.context] := by
    simp [Scope.frames]
  rw [outward?, hframes, findSomeM?_lookup? h, Scope.outward?]

theorem resolve?_eq (h : s.InBounds) (path : String) :
    resolve? s.frames path = some (s.resolve? path) := by
  rw [resolve?, Scope.resolve?]
  split
  · exact innermost?_bind h path
  · cases Path.segments path with
    | nil => rfl
    | cons first rest =>
        simp only [outward?_eq h, Option.bind_eq_bind, Option.bind_some]
        cases s.outward? first with
        | none => rfl
        | some head =>
            cases rest with
            | nil => rfl
            | cons name rest => exact walk?_eq _ head

/-! ## The evaluation follows the render -/

def Machine.ofState (s : RenderState) : Machine := ⟨s.scope.frames, s.progress, s.output⟩

/-- A checked evaluation has come to what a part of a render has come to, and the scope is what it
was. -/
inductive Agrees (scope : Scope) : EStateM.Result RenderError RenderState Unit →
    Option (Except RenderError Unit × Machine) → Prop
  | ok {s : RenderState} (h : s.scope = scope) :
      Agrees scope (.ok () s) (some (.ok (), .ofState s))
  | error {e : RenderError} {s : RenderState} (h : s.scope = scope) :
      Agrees scope (.error e s) (some (.error e, .ofState s))

namespace Evaluation

/-- From every state with frames in bounds the evaluation does what the part of a render does. -/
def Follows (m' : Evaluation Unit) (m : Render Unit) : Prop :=
  ∀ s : RenderState, s.scope.InBounds → Agrees s.scope (m s) (m' (.ofState s))

theorem bind_of_ok {α β : Type} {m : Evaluation α} {f : α → Evaluation β} {a : α} {s s' : Machine}
    (h : m s = some (.ok a, s')) : (m >>= f) s = f a s' := by
  show (m s).bind _ = _
  rw [h]
  rfl

theorem bind_of_error {α β : Type} {m : Evaluation α} {f : α → Evaluation β} {e : RenderError}
    {s s' : Machine} (h : m s = some (.error e, s')) : (m >>= f) s = some (.error e, s') := by
  show (m s).bind _ = _
  rw [h]
  rfl

theorem follows_pure : Follows (pure ()) (pure ()) := fun _ _ => .ok rfl

theorem Follows.bind {m' n' : Evaluation Unit} {m n : Render Unit} (h : Follows m' m)
    (h' : Follows n' n) : Follows (m' >>= fun _ => n') (m >>= fun _ => n) := by
  intro s hs
  have hfirst := h s hs
  generalize hr : m s = r at hfirst
  generalize hr' : m' (.ofState s) = r' at hfirst
  cases hfirst with
  | @ok t hscope =>
      rw [Render.bind_of_ok hr, bind_of_ok hr', ← hscope]
      exact h' t (hscope ▸ hs)
  | error hscope =>
      rw [Render.bind_of_error hr, bind_of_error hr']
      exact .error hscope

theorem follows_write {m : Render Unit} {step : Progress → Except RenderError (String × Progress)}
    (h : ∀ s : RenderState, m s = match step s.progress with
      | .ok (text, progress) => .ok () { s with progress, output := s.output ++ text }
      | .error e => .error e s) : Follows (write step) m := by
  intro s hs
  have hwrite : write step (.ofState s) = match step s.progress with
      | .ok (text, progress) =>
        some (.ok (), .ofState { s with progress, output := s.output ++ text })
      | .error e => some (.error e, .ofState s) := by
    show (match step s.progress with
      | .ok (text, progress) => set { Machine.ofState s with progress, output := s.output ++ text }
      | .error e => throw e : Evaluation Unit) (.ofState s) = _
    cases step s.progress <;> rfl
  rw [h s, hwrite]
  cases step s.progress with
  | ok shown => exact .ok rfl
  | error e => exact .error rfl

theorem follows_emit (text : String) :
    Follows (write fun p => .ok (text, p)) (Render.emit text) := follows_write fun _ => rfl

theorem follows_emitMissing (path : String) (span : Span) :
    Follows (write fun p => p.missing path span) (Render.emitMissing path span) :=
  follows_write (Render.emitMissing_apply path span)

theorem follows_advance (step : Progress → Except RenderError Progress) :
    Follows (write fun p => (step p).map ("", ·)) (Render.advance step) := by
  refine follows_write fun s => ?_
  rw [Render.advance_apply]
  cases step s.progress with
  | error e => rfl
  | ok progress => simp [Except.map]

theorem follows_enter : Follows enter (Render.advance Progress.enter) := by
  intro s hs
  have henter : enter (.ofState s) =
      (if s.progress.depth < s.progress.options.maxDepth then do
        let depth ← next? s.progress.options.maxDepth s.progress.depth
        set { Machine.ofState s with progress := { s.progress with depth } }
      else throw (.tooDeep s.progress.options.maxDepth) : Evaluation Unit) (.ofState s) := rfl
  rw [henter]
  by_cases hroom : s.progress.depth < s.progress.options.maxDepth
  · rw [if_pos hroom, Render.advance_enter_of_lt hroom, next?_eq_some hroom]
    exact Agrees.ok (s := s.atDepth (s.progress.depth + 1)) rfl
  · rw [if_neg hroom, Render.advance_enter_of_not_lt hroom]
    exact .error rfl

theorem Follows.nested {body' : Evaluation Unit} {body : Render Unit} (h : Follows body' body) :
    Follows (nested body') (Render.nested body) :=
  follows_enter.bind (h.bind (follows_advance fun p => .ok p.exit))

theorem Follows.inFrame {body' : Evaluation Unit} {body : Render Unit} (h : Follows body' body)
    {frame : LoopFrame} (hframe : frame.index < frame.length) :
    Follows (inFrame frame body') (Render.inFrame frame body) := by
  intro s hs
  have hbody := h { s with scope := s.scope.push frame } (hs.push hframe)
  have hpop : ∀ t : RenderState, t.scope = s.scope.push frame →
      pop t.scope.frames = t.scope.pop.frames := by
    intro t ht
    rw [ht, pop_frames_push, Scope.pop_push]
  have hinFrame : Evaluation.inFrame frame body' (.ofState s) =
      (body' (.ofState { s with scope := s.scope.push frame })).bind fun r =>
        some (r.1, { r.2 with frames := pop r.2.frames }) := by
    simp only [Evaluation.inFrame, Machine.ofState, push?_frames hframe, Option.bind_eq_bind,
      Option.bind_some]
  -- The frame is taken off whether or not the body fails.
  rw [hinFrame, Render.inFrame]
  generalize body _ = r at hbody
  generalize body' _ = r' at hbody
  cases hbody with
  | @ok t hscope =>
      rw [Option.bind_some, Machine.ofState, hpop t hscope]
      exact Agrees.ok (s := { t with scope := t.scope.pop }) (congrArg Scope.pop hscope)
  | @error e t hscope =>
      rw [Option.bind_some, Machine.ofState, hpop t hscope]
      exact Agrees.error (s := { t with scope := t.scope.pop }) (congrArg Scope.pop hscope)

theorem Follows.inFrames {body' : Evaluation Unit} {body : Render Unit} (h : Follows body' body)
    {frames : List LoopFrame} (hframes : ∀ frame ∈ frames, frame.index < frame.length) :
    Follows (frames.forM (Evaluation.inFrame · body')) (frames.forM (Render.inFrame · body)) := by
  induction frames with
  | nil => exact follows_pure
  | cons frame rest ih =>
      obtain ⟨hframe, hrest⟩ := List.forall_mem_cons.mp hframes
      exact (h.inFrame hframe).bind (ih hrest)

/-- What is made of the value of a path follows if it does for each value. -/
theorem follows_resolve {path : String} {k' : Option Value → Evaluation Unit}
    {k : Option Value → Render Unit} (h : ∀ value, Follows (k' value) (k value)) :
    Follows (resolve path >>= k') (Render.resolve? path >>= k) := by
  intro s hs
  have hvalue' : resolve path (.ofState s) = some (.ok (s.scope.resolve? path), .ofState s) := by
    show (liftM (resolve? s.scope.frames path) : Evaluation (Option Value)) (.ofState s) = _
    rw [resolve?_eq hs]
    rfl
  rw [Render.resolve_bind_apply, bind_of_ok hvalue']
  exact h _ s hs

theorem follows_interpolate (path : String) (span : Span) :
    Follows (interpolate path span) (Render.interpolate path span) := by
  refine follows_resolve fun value => ?_
  cases value with
  | none => exact follows_emitMissing path span
  | some value =>
      cases hnull : value.isNull with
      | true =>
          simp only [hnull, if_true]
          exact follows_emitMissing path span
      | false =>
          simp only [hnull, Bool.false_eq_true, if_false]
          exact follows_emit value.render

theorem Follows.conditional {body' : Evaluation Unit} {body : Render Unit} (h : Follows body' body)
    (subject : Reference) (expected : Bool) :
    Follows (conditional subject expected body') (Render.conditional subject expected body) := by
  refine follows_resolve fun value => ?_
  by_cases hexpected : (value.map Value.isTruthy).getD false = expected
  · simp only [hexpected, if_true]
    exact h.nested
  · simp only [hexpected, if_false]
    exact follows_pure

theorem Follows.iteration {body' : Evaluation Unit} {body : Render Unit} (h : Follows body' body)
    (subject : Reference) :
    Follows (iteration subject body') (Render.iteration subject body) := by
  have hskip := follows_advance (·.notIterable subject.path subject.span)
  refine follows_resolve fun value => ?_
  rcases value with _ | value
  · exact hskip
  · cases value with
    | list items =>
        cases items with
        | nil => exact follows_pure
        | cons item rest => exact (h.inFrames fun _ => Render.index_lt_of_mem_framesOf).nested
    | null | bool | number | string | map => exact hskip

theorem Follows.block {body' : Evaluation Unit} {body : Render Unit} (h : Follows body' body)
    (kind : BlockKind) (subject : Reference) :
    Follows (block kind subject body') (Render.block kind subject body) := by
  cases kind with
  | conditional => exact h.conditional subject true
  | negation => exact h.conditional subject false
  | iteration => exact h.iteration subject

mutual

theorem follows_node : ∀ n : Node, Follows (node n) n.render
  | .literal text _ => follows_emit text
  | .interpolation path span => follows_interpolate path span
  | .block kind subject body _ => (follows_nodes body).block kind subject

theorem follows_nodes : ∀ ns : List Node, Follows (nodes ns) (Node.renderAll ns)
  | [] => follows_pure
  | n :: rest => (follows_node n).bind (follows_nodes rest)

end

end Evaluation

theorem render?_eq (t : Template) (context : Context) (options : Options) (name : Option String) :
    render? t context options name = some (t.render context options name) := by
  have hscope : (Scope.ofContext context).InBounds := fun _ hmem => absurd hmem List.not_mem_nil
  have hagrees := Evaluation.follows_nodes t.nodes ⟨.ofContext context, .start options name, ""⟩
    hscope
  have hstart : Machine.ofState ⟨.ofContext context, .start options name, ""⟩ =
      ⟨[.root context], .start options name, ""⟩ := rfl
  rw [hstart] at hagrees
  rw [render?, Template.render]
  generalize Node.renderAll t.nodes _ = r at hagrees
  generalize Evaluation.nodes t.nodes _ = r' at hagrees
  cases hagrees with
  | ok => rfl
  | error => rfl

/-- No check fails, of a slice, an index, a difference, a count or the way that a scan has come:
every source is compiled, validated and counted, and every template rendered, as if there were no
checks. -/
theorem every_check_passes :
    (∀ source start stop, (slice? source start stop).isSome = true ↔
      start ≤ stop ∧ stop ≤ source.utf8ByteSize ∧ (Span.mk start stop).OnBoundaries source) ∧
    (∀ source, compile? source = some (Template.compile source) ∧
      validate? source = some (Validation.ofSource source) ∧
      stats? source = some (Stats.ofSource source)) ∧
    ∀ t context options name,
      render? t context options name = some (Template.render t context options name) :=
  ⟨fun _ _ _ => isSome_slice?_iff,
    fun source => ⟨compile?_eq source, validate?_eq source, stats?_eq source⟩, render?_eq⟩

end Checked

end Stencil

import Stencil.Proofs.Render.Script

/-!
# Scripts of two scopes side by side

Two scopes may differ and still make a script do like things: the same actions one after the other,
up to the texts that are shown. What a script asks of a value is whether it is null, whether it is
truthy and what its elements are; a relation of values that answers alike on these
(`Value.Congruent`) is carried through every construct by the lemmas on `Script.Follows`, for
whatever relation of scopes puts related values behind the paths. The plainest such relation is
`Scope.Alike`, of scopes that are put together from related values. Like scripts come to the same
substitutions and the same failure (`perform_like`).
-/

namespace Stencil

/-! ## Like actions -/

/-- The same action, but for the text that it shows. -/
inductive Action.Like (text : String → String → Prop) : Action → Action → Prop
  | emit {shown shown' : String} (h : text shown shown') : Like text (.emit shown) (.emit shown')
  | degrade (d : Degradation) : Like text (.degrade d) (.degrade d)
  | overflow : Like text .overflow .overflow

theorem Action.Like.eq {a a' : Action} (h : Action.Like Eq a a') : a = a' := by
  cases h with
  | emit h => rw [h]
  | degrade d => rfl
  | overflow => rfl

theorem Action.Like.mono {text text' : String → String → Prop}
    (htext : ∀ {shown shown'}, text shown shown' → text' shown shown') {a a' : Action}
    (h : Action.Like text a a') : Action.Like text' a a' := by
  cases h with
  | emit h => exact .emit (htext h)
  | degrade d => exact .degrade d
  | overflow => exact .overflow

/-- The actions of two scripts, one by one. -/
abbrev Action.LikeAll (text : String → String → Prop) : List Action → List Action → Prop :=
  List.Forall₂ (Action.Like text)

theorem Action.LikeAll.eq {actions actions' : List Action} (h : LikeAll Eq actions actions') :
    actions = actions' := by
  induction h with
  | nil => rfl
  | cons hhead _ ih => rw [hhead.eq, ih]

section Perform

variable {text : String → String → Prop} (o : Options)

theorem Action.Like.yield {a a' : Action} (h : Action.Like text a a') :
    (a.yield o).degradations = (a'.yield o).degradations ∧
      (a.yield o).failure = (a'.yield o).failure := by
  cases h with
  | emit h => exact ⟨rfl, rfl⟩
  | degrade d => exact ⟨rfl, rfl⟩
  | overflow => exact ⟨rfl, rfl⟩

theorem Yield.andThen_congr {a a' b b' : Yield}
    (h : a.degradations = a'.degradations ∧ a.failure = a'.failure)
    (h' : b.degradations = b'.degradations ∧ b.failure = b'.failure) :
    (a.andThen b).degradations = (a'.andThen b').degradations ∧
      (a.andThen b).failure = (a'.andThen b').failure := by
  obtain ⟨output, degradations, failure⟩ := a
  obtain ⟨output', degradations', failure'⟩ := a'
  obtain ⟨rfl, rfl⟩ : degradations = degradations' ∧ failure = failure' := h
  cases failure with
  | none => exact ⟨congrArg (degradations ++ ·) h'.1, h'.2⟩
  | some e => exact ⟨rfl, rfl⟩

/-- Like scripts come to the same, but for the output. -/
theorem perform_like {actions actions' : List Action} (h : Action.LikeAll text actions actions') :
    (perform o actions).degradations = (perform o actions').degradations ∧
      (perform o actions).failure = (perform o actions').failure := by
  induction h with
  | nil => exact ⟨rfl, rfl⟩
  | cons hhead _ ih =>
      rw [perform_cons, perform_cons]
      exact Yield.andThen_congr (hhead.yield o) ih

end Perform

/-! ## Like values -/

namespace Value

/-- The elements of a list. -/
def items? : Value → Option (List Value)
  | list items => some items
  | _ => none

theorem isTruthy_list_congr {alike : Value → Value → Prop} {items items' : List Value}
    (h : List.Forall₂ alike items items') : (list items).isTruthy = (list items').isTruthy := by
  cases h with
  | nil => rfl
  | cons _ _ => rfl

/-- Maps that know the same names are empty together. -/
theorem isTruthy_map_congr {alike : Value → Value → Prop} {fields fields' : Bindings Value}
    (h : ∀ name, Option.Rel alike (fields.get? name) (fields'.get? name)) :
    (map fields).isTruthy = (map fields').isTruthy := by
  cases fields with
  | nil =>
      cases fields' with
      | nil => rfl
      | cons field' rest' =>
          have hfound := h field'.1
          rw [Bindings.get?_nil, Bindings.get?_cons_self] at hfound
          cases hfound
  | cons field rest =>
      cases fields' with
      | nil =>
          have hfound := h field.1
          rw [Bindings.get?_nil, Bindings.get?_cons_self] at hfound
          cases hfound
      | cons field' rest' => rfl

/-- Related values answer alike to all that a template asks of a value but its text, and what a
loop itself provides is related to itself. -/
structure Congruent (alike : Value → Value → Prop) : Prop where
  isNull {v v' : Value} : alike v v' → v.isNull = v'.isNull
  isTruthy {v v' : Value} : alike v v' → v.isTruthy = v'.isTruthy
  items {v v' : Value} : alike v v' → Option.Rel (List.Forall₂ alike) v.items? v'.items?
  field {v v' : Value} : alike v v' → ∀ name, Option.Rel alike (v.field? name) (v'.field? name)
  bool (value : Bool) : alike (.bool value) (.bool value)
  number (value : Binary64) : alike (.number value) (.number value)

namespace Congruent

theorem eq : Congruent Eq where
  isNull h := congrArg Value.isNull h
  isTruthy h := congrArg Value.isTruthy h
  items {v v'} h := by
    subst h
    cases v.items? with
    | none => exact .none
    | some items => exact .some (List.forall₂_refl items)
  field {v v'} h name := by
    subst h
    cases v.field? name with
    | none => exact .none
    | some value => exact .some rfl
  bool _ := rfl
  number _ := rfl

variable {alike : Value → Value → Prop} {found found' : Option Value}

theorem map_isTruthy (h : Congruent alike) (hfound : Option.Rel alike found found') :
    found.map Value.isTruthy = found'.map Value.isTruthy := by
  cases hfound with
  | none => rfl
  | some hvalue => exact congrArg some (h.isTruthy hvalue)

theorem bind_items (h : Congruent alike) (hfound : Option.Rel alike found found') :
    Option.Rel (List.Forall₂ alike) (found.bind Value.items?) (found'.bind Value.items?) := by
  cases hfound with
  | none => exact .none
  | some hvalue => exact h.items hvalue

theorem getPath? (h : Congruent alike) {v v' : Value} (hvalue : alike v v')
    (path : List String) : Option.Rel alike (v.getPath? path) (v'.getPath? path) := by
  induction path generalizing v v' with
  | nil => exact .some hvalue
  | cons name rest ih =>
      have hfield := h.field hvalue name
      rw [Value.getPath?, Value.getPath?]
      generalize v.field? name = found at hfield ⊢
      generalize v'.field? name = found' at hfield ⊢
      cases hfield with
      | none => exact .none
      | some hvalue => exact ih hvalue

end Congruent

end Value

/-! ## Like scopes -/

/-- The key of a context that a path is looked up under, when no frame of a loop is. -/
def Path.root (path : String) : String :=
  if isReserved path || path = "this" then path else (segments path).headD path

/-- Iterations at the same place of loops over related elements. -/
structure LoopFrame.Alike (alike : Value → Value → Prop) (f f' : LoopFrame) : Prop where
  item : alike f.item f'.item
  index : f.index = f'.index
  length : f.length = f'.length

/-- The loops under way are over related elements, and the contexts bind related values to the
names in `keys`; what they bind to others does not matter. -/
structure Scope.Alike (alike : Value → Value → Prop) (keys : String → Prop)
    (s s' : Scope) : Prop where
  context : ∀ key, keys key → Option.Rel alike (s.context.get? key) (s'.context.get? key)
  loops : List.Forall₂ (LoopFrame.Alike alike) s.loops s'.loops

section Lookup

variable {alike : Value → Value → Prop} {keys : String → Prop} {s s' : Scope}

theorem LoopFrame.Alike.lookup? (halike : Value.Congruent alike) {f f' : LoopFrame}
    (h : f.Alike alike f') (name : String) :
    Option.Rel alike (f.lookup? name) (f'.lookup? name) := by
  rw [LoopFrame.lookup?, LoopFrame.lookup?, h.index, h.length]
  by_cases hthis : name = "this"
  · rw [if_pos hthis, if_pos hthis]
    exact .some h.item
  · rw [if_neg hthis, if_neg hthis]
    -- The four names of loop state come next, and then the fields of the element.
    split
    · exact .some (halike.number _)
    · split
      · exact .some (halike.bool _)
      · split
        · exact .some (halike.bool _)
        · split
          · exact .some (halike.number _)
          · exact halike.field h.item name

namespace Scope.Alike

theorem ofContext {c c' : Context}
    (h : ∀ key, keys key → Option.Rel alike (c.get? key) (c'.get? key)) :
    (Scope.ofContext c).Alike alike keys (Scope.ofContext c') := ⟨h, .nil⟩

theorem push (h : s.Alike alike keys s') {item item' : Value} (hitem : alike item item')
    (index length : Nat) :
    (s.push ⟨item, index, length⟩).Alike alike keys (s'.push ⟨item', index, length⟩) :=
  ⟨h.context, .cons ⟨hitem, rfl, rfl⟩ h.loops⟩

theorem innermost? (halike : Value.Congruent alike) (h : s.Alike alike keys s') {name : String}
    (hname : keys name) : Option.Rel alike (s.innermost? name) (s'.innermost? name) := by
  obtain ⟨context, loops⟩ := s
  obtain ⟨context', loops'⟩ := s'
  obtain ⟨hcontext, hloops⟩ := h
  cases hloops with
  | nil => exact hcontext name hname
  | cons hframe _ => exact hframe.lookup? halike name

theorem outward? (halike : Value.Congruent alike) (h : s.Alike alike keys s') {name : String}
    (hname : keys name) : Option.Rel alike (s.outward? name) (s'.outward? name) := by
  obtain ⟨context, loops⟩ := s
  obtain ⟨context', loops'⟩ := s'
  obtain ⟨hcontext, hloops⟩ := h
  replace hcontext := hcontext name hname
  dsimp only at hcontext hloops
  rw [Scope.outward?, Scope.outward?]
  induction hloops with
  | nil => exact hcontext
  | @cons frame frame' _ _ hframe _ ih =>
      have hfound := hframe.lookup? halike name
      rw [List.findSome?_cons, List.findSome?_cons]
      generalize frame.lookup? name = found at hfound ⊢
      generalize frame'.lookup? name = found' at hfound ⊢
      cases hfound with
      | none => exact ih
      | some hvalue => exact .some hvalue

/-- A path is looked up in frames of loops and under its root. -/
theorem resolve? (halike : Value.Congruent alike) (h : s.Alike alike keys s') {path : String}
    (hpath : keys (Path.root path)) : Option.Rel alike (s.resolve? path) (s'.resolve? path) := by
  rw [Scope.resolve?, Scope.resolve?]
  rw [Path.root] at hpath
  split
  · rename_i hinnermost
    rw [if_pos hinnermost] at hpath
    exact h.innermost? halike hpath
  · rename_i hinnermost
    rw [if_neg hinnermost] at hpath
    cases hsegments : Path.segments path with
    | nil => exact .none
    | cons first rest =>
        rw [hsegments, List.headD_cons] at hpath
        have hfound := h.outward? halike hpath
        dsimp only
        generalize s.outward? first = found at hfound ⊢
        generalize s'.outward? first = found' at hfound ⊢
        cases hfound with
        | none => exact .none
        | some hvalue => exact halike.getPath? hvalue rest

end Scope.Alike

end Lookup

/-! ## Like scripts -/

/-- A loop goes by the elements of its subject alone. -/
theorem Script.iteration_apply (subject : Reference) (body : Script) (room : Nat) (s : Scope) :
    body.iteration subject room s =
      match (s.resolve? subject.path).bind Value.items? with
      | some [] => []
      | some items => (body.inFrames (Render.framesOf items)).nested room s
      | none => [.degrade ⟨.notIterable, subject.path, subject.span⟩] := by
  rw [Script.iteration]
  generalize s.resolve? subject.path = found
  cases found with
  | none => rfl
  | some value =>
      cases value with
      | list items =>
          cases items with
          | nil => rfl
          | cons _ _ => rfl
      | _ => rfl

/-- In related scopes the script does like things. -/
def Script.Follows (scopes : Scope → Scope → Prop) (text : String → String → Prop)
    (script : Script) : Prop :=
  ∀ room {s s' : Scope}, scopes s s' → Action.LikeAll text (script room s) (script room s')

namespace Script.Follows

variable {scopes inner : Scope → Scope → Prop} {text : String → String → Prop}
  {alike : Value → Value → Prop} {body : Script}

theorem nil : Follows scopes text fun _ _ => [] :=
  fun _ _ _ _ => .nil

theorem append {script script' : Script} (h : script.Follows scopes text)
    (h' : script'.Follows scopes text) :
    Follows scopes text fun room scope => script room scope ++ script' room scope :=
  fun room _ _ hs => List.rel_append (h room hs) (h' room hs)

theorem emit {shown : String} (h : text shown shown) :
    Follows scopes text fun _ _ => [.emit shown] :=
  fun _ _ _ _ => .cons (.emit h) .nil

theorem nested (h : body.Follows scopes text) : body.nested.Follows scopes text := by
  intro room s s' hs
  cases room with
  | zero => exact .cons .overflow .nil
  | succ room => exact h room hs

theorem interpolate (halike : Value.Congruent alike) {path : String} (span : Span)
    (hpath : ∀ {s s' : Scope}, scopes s s' → Option.Rel alike (s.resolve? path) (s'.resolve? path))
    (htext : ∀ {s s' : Scope} {v v' : Value}, scopes s s' → s.resolve? path = some v →
      s'.resolve? path = some v' → alike v v' → text v.render v'.render) :
    (Script.interpolate path span).Follows scopes text := by
  intro room s s' hs
  have hfound := hpath hs
  rw [Script.interpolate, Script.interpolate]
  cases hv : s.resolve? path with
  | none =>
      rw [hv] at hfound
      cases hv' : s'.resolve? path with
      | none => exact .cons (.degrade _) .nil
      | some v' => rw [hv'] at hfound; cases hfound
  | some v =>
      rw [hv] at hfound
      cases hv' : s'.resolve? path with
      | none => rw [hv'] at hfound; cases hfound
      | some v' =>
          rw [hv'] at hfound
          cases hfound with
          | some hvalue =>
              simp only [halike.isNull hvalue]
              by_cases hnull : v'.isNull
              · rw [if_pos hnull, if_pos hnull]
                exact .cons (.degrade _) .nil
              · rw [if_neg hnull, if_neg hnull]
                exact .cons (.emit (htext hs hv hv' hvalue)) .nil

theorem conditional (halike : Value.Congruent alike) {subject : Reference}
    (hpath : ∀ {s s' : Scope}, scopes s s' →
      Option.Rel alike (s.resolve? subject.path) (s'.resolve? subject.path))
    (expected : Bool) (h : body.Follows scopes text) :
    (body.conditional subject expected).Follows scopes text := by
  intro room s s' hs
  rw [Script.conditional, Script.conditional, halike.map_isTruthy (hpath hs)]
  split
  · exact h.nested room hs
  · exact .nil

/-- The frames of two lists with related elements, each with the other's. -/
theorem inFrames (h : body.Follows inner text)
    (hpush : ∀ {s s' : Scope} {item item' : Value} (index length : Nat), scopes s s' →
      alike item item' → inner (s.push ⟨item, index, length⟩) (s'.push ⟨item', index, length⟩))
    {items items' : List Value} (hitems : List.Forall₂ alike items items') (room : Nat)
    {s s' : Scope} (hs : scopes s s') :
    Action.LikeAll text (body.inFrames (Render.framesOf items) room s)
      (body.inFrames (Render.framesOf items') room s') := by
  have hframes : ∀ start length, Action.LikeAll text
      (((items.zipIdx start).map fun entry => ⟨entry.1, entry.2, length⟩).flatMap
        fun frame => body room (s.push frame))
      (((items'.zipIdx start).map fun entry => ⟨entry.1, entry.2, length⟩).flatMap
        fun frame => body room (s'.push frame)) := by
    induction hitems with
    | nil => exact fun _ _ => .nil
    | cons hitem _ ih =>
        intro start length
        exact List.rel_append (h room (hpush start length hs hitem)) (ih (start + 1) length)
  rw [Script.inFrames, Script.inFrames, Render.framesOf, Render.framesOf, hitems.length_eq]
  exact hframes 0 items'.length

theorem iteration (halike : Value.Congruent alike) {subject : Reference}
    (hpath : ∀ {s s' : Scope}, scopes s s' →
      Option.Rel alike (s.resolve? subject.path) (s'.resolve? subject.path))
    (hpush : ∀ {s s' : Scope} {item item' : Value} (index length : Nat), scopes s s' →
      alike item item' → inner (s.push ⟨item, index, length⟩) (s'.push ⟨item', index, length⟩))
    (h : body.Follows inner text) : (body.iteration subject).Follows scopes text := by
  intro room s s' hs
  have hitems := halike.bind_items (hpath hs)
  rw [Script.iteration_apply, Script.iteration_apply]
  generalize (s.resolve? subject.path).bind Value.items? = found at hitems ⊢
  generalize (s'.resolve? subject.path).bind Value.items? = found' at hitems ⊢
  cases hitems with
  | none => exact .cons (.degrade _) .nil
  | some hitems =>
      cases room with
      | zero =>
          cases hitems with
          | nil => exact .nil
          | cons _ _ => exact .cons .overflow .nil
      | succ room =>
          have hloop := h.inFrames hpush hitems room hs
          cases hitems with
          | nil => exact .nil
          | cons _ _ => exact hloop

/-- A block, where the relation of scopes may depend on whether they are inside a loop. -/
theorem block (scopes : Bool → Scope → Scope → Prop) (inLoop : Bool)
    (halike : Value.Congruent alike) {subject : Reference}
    (hpath : ∀ {s s' : Scope}, scopes inLoop s s' →
      Option.Rel alike (s.resolve? subject.path) (s'.resolve? subject.path))
    (hpush : ∀ {s s' : Scope} {item item' : Value} (index length : Nat), scopes inLoop s s' →
      alike item item' →
        scopes true (s.push ⟨item, index, length⟩) (s'.push ⟨item', index, length⟩))
    (kind : BlockKind) (h : body.Follows (scopes (inLoop || kind = .iteration)) text) :
    (Script.block kind subject body).Follows (scopes inLoop) text := by
  cases kind with
  | conditional =>
      rw [show (inLoop || decide (BlockKind.conditional = .iteration)) = inLoop from
        Bool.or_false inLoop] at h
      exact h.conditional halike hpath true
  | negation =>
      rw [show (inLoop || decide (BlockKind.negation = .iteration)) = inLoop from
        Bool.or_false inLoop] at h
      exact h.conditional halike hpath false
  | iteration =>
      rw [show (inLoop || decide (BlockKind.iteration = .iteration)) = true from
        Bool.or_true inLoop] at h
      exact h.iteration halike hpath hpush

end Script.Follows

end Stencil

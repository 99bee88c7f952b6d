import Stencil.Proofs.Render.Likeness
import Stencil.Proofs.Render.Report

/-!
# Similar data

Data is shown, tested and walked through, and never read as a template. Two values are similar when
a template cannot tell them apart but by showing them: they have the same shape, and their scalars
the same truthiness. With similar contexts a template fails with the same error, or makes the same
substitutions and shows something in both (`Template.render_similar`); a template that shows nothing
but loop state shows the same.

Similar values answer alike to all that a template asks of a value but its text
(`Value.Similar.congruent`); the rest is the lemmas on scripts side by side.
-/

namespace Stencil

/-! ## Similar values -/

namespace Value

/-- Strings, numbers and booleans. -/
def isScalar : Value → Bool
  | bool _ => true
  | number _ => true
  | string _ => true
  | _ => false

/-- Values of one shape whose scalars have the same truthiness. -/
inductive Similar : Value → Value → Prop
  | null : Similar null null
  | scalar {v v' : Value} (hv : v.isScalar = true) (hv' : v'.isScalar = true)
      (h : v.isTruthy = v'.isTruthy) : Similar v v'
  | list {items items' : List Value} (h : List.Forall₂ Similar items items') :
      Similar (list items) (list items')
  | map {fields fields' : Bindings Value}
      (h : ∀ name, Option.Rel Similar (fields.get? name) (fields'.get? name)) :
      Similar (map fields) (map fields')

theorem isNull_of_isScalar {v : Value} (h : v.isScalar = true) : v.isNull = false := by
  cases v with
  | null => cases h
  | bool _ | number _ | string _ | list _ | map _ => rfl

theorem items?_of_isScalar {v : Value} (h : v.isScalar = true) : v.items? = none := by
  cases v with
  | list _ => cases h
  | null | bool _ | number _ | string _ | map _ => rfl

theorem field?_of_isScalar {v : Value} (h : v.isScalar = true) (name : String) :
    v.field? name = none := by
  cases v with
  | map _ => cases h
  | null | bool _ | number _ | string _ | list _ => rfl

namespace Similar

theorem isNull {v v' : Value} (h : v.Similar v') : v.isNull = v'.isNull := by
  cases h with
  | null => rfl
  | scalar hv hv' _ => rw [isNull_of_isScalar hv, isNull_of_isScalar hv']
  | list h => rfl
  | map h => rfl

theorem isTruthy {v v' : Value} (h : v.Similar v') : v.isTruthy = v'.isTruthy := by
  cases h with
  | null => rfl
  | scalar _ _ h => exact h
  | list h => exact isTruthy_list_congr h
  | map h => exact isTruthy_map_congr h

theorem items {v v' : Value} (h : v.Similar v') :
    Option.Rel (List.Forall₂ Similar) v.items? v'.items? := by
  cases h with
  | null => exact .none
  | scalar hv hv' _ =>
      rw [items?_of_isScalar hv, items?_of_isScalar hv']
      exact .none
  | list h => exact .some h
  | map h => exact .none

theorem field {v v' : Value} (h : v.Similar v') (name : String) :
    Option.Rel Similar (v.field? name) (v'.field? name) := by
  cases h with
  | null => exact .none
  | scalar hv hv' _ =>
      rw [field?_of_isScalar hv, field?_of_isScalar hv']
      exact .none
  | list h => exact .none
  | map h => exact h name

theorem congruent : Congruent Similar where
  isNull := isNull
  isTruthy := isTruthy
  items := items
  field := field
  bool _ := .scalar rfl rfl rfl
  number _ := .scalar rfl rfl rfl

end Similar

end Value

/-! ## Similar scopes -/

/-- The contexts bind the same names, to similar values. -/
def Context.Similar (c c' : Context) : Prop :=
  ∀ name, Option.Rel Value.Similar (c.get? name) (c'.get? name)

/-- Similar throughout, with at least one loop under way if so required. -/
structure Scope.Similar (inLoop : Bool) (s s' : Scope) : Prop where
  alike : s.Alike Value.Similar (fun _ => True) s'
  loops : inLoop = true → s.loops ≠ []

/-- The names that a loop binds to its own state and not to data. -/
def LoopFrame.stateNames : List String := ["@index", "@first", "@last", "@length"]

/-- What is bound to the names of the state is the same, wherever the elements come from. -/
theorem LoopFrame.Alike.lookup?_state {f f' : LoopFrame} (h : f.Alike Value.Similar f')
    {name : String} (hname : name ∈ stateNames) : f.lookup? name = f'.lookup? name := by
  obtain ⟨item, index, length⟩ := f
  obtain ⟨item', index', length'⟩ := f'
  obtain ⟨-, hindex, hlength⟩ := h
  dsimp only at hindex hlength
  subst hindex hlength
  simp only [stateNames, List.mem_cons, List.not_mem_nil, or_false] at hname
  rcases hname with rfl | rfl | rfl | rfl <;> rfl

namespace Scope.Similar

variable {inLoop : Bool} {s s' : Scope}

theorem ofContext {c c' : Context} (h : c.Similar c') :
    Similar false (Scope.ofContext c) (Scope.ofContext c') :=
  ⟨.ofContext fun name _ => h name, Bool.noConfusion⟩

theorem push (h : s.Similar inLoop s') {item item' : Value} (hitem : item.Similar item')
    (index length : Nat) :
    (s.push ⟨item, index, length⟩).Similar true (s'.push ⟨item', index, length⟩) :=
  ⟨h.alike.push hitem index length, fun _ => List.cons_ne_nil _ _⟩

theorem resolve? (h : s.Similar inLoop s') (path : String) :
    Option.Rel Value.Similar (s.resolve? path) (s'.resolve? path) :=
  h.alike.resolve? Value.Similar.congruent trivial

/-- Inside a loop the names of its state mean the same, whatever the data. -/
theorem resolve?_state (h : s.Similar true s') {path : String}
    (hpath : path ∈ LoopFrame.stateNames) : s.resolve? path = s'.resolve? path := by
  have hreserved : (Path.isReserved path || decide (path = "this")) = true := by
    simp only [LoopFrame.stateNames, List.mem_cons, List.not_mem_nil, or_false] at hpath
    rcases hpath with rfl | rfl | rfl | rfl <;> decide
  rw [Scope.resolve?, Scope.resolve?, if_pos hreserved, if_pos hreserved]
  obtain ⟨context, loops⟩ := s
  obtain ⟨context', loops'⟩ := s'
  obtain ⟨⟨-, hframes⟩, hloops⟩ := h
  cases hframes with
  | nil => exact absurd rfl (hloops rfl)
  | cons hframe _ => exact hframe.lookup?_state hpath

end Scope.Similar

/-! ## Similar renders -/

mutual

/-- Whether no data is shown, neither inside the node nor at it, given whether the node itself is
inside a loop: every interpolation reads the state of a loop. -/
def Node.showsNoData (inLoop : Bool) : Node → Bool
  | .literal _ _ => true
  | .interpolation path _ => inLoop && path ∈ LoopFrame.stateNames
  | .block kind _ body _ => Node.showsNoDataAll (inLoop || kind = .iteration) body

def Node.showsNoDataAll (inLoop : Bool) : List Node → Bool
  | [] => true
  | node :: rest => node.showsNoData inLoop && Node.showsNoDataAll inLoop rest

end

section Nodes

variable {exact : Prop}

mutual

/-- In similar scopes a node does like things, and the same if it shows no data. The flag `exact`
stands for the latter. -/
theorem Node.follows_script_similar : ∀ (node : Node) {inLoop : Bool},
    (exact → node.showsNoData inLoop = true) →
      node.script.Follows (Scope.Similar inLoop) fun shown shown' => exact → shown = shown'
  | .literal _ _, _, _ => .emit fun _ => rfl
  | .interpolation path span, inLoop, hexact => by
      refine .interpolate Value.Similar.congruent span (fun hs => hs.resolve? path) ?_
      intro s s' v v' hs hv hv' _ hex
      have hshown := hexact hex
      rw [Node.showsNoData, Bool.and_eq_true, decide_eq_true_eq] at hshown
      obtain ⟨rfl, hpath⟩ := hshown
      rw [hs.resolve?_state hpath, hv'] at hv
      rw [Option.some.inj hv]
  | .block kind subject body _, inLoop, hexact =>
      .block Scope.Similar inLoop Value.Similar.congruent (fun hs => hs.resolve? subject.path)
        (fun index length hs hitem => hs.push hitem index length) kind
        (Node.follows_scriptAll_similar body hexact)

theorem Node.follows_scriptAll_similar : ∀ (nodes : List Node) {inLoop : Bool},
    (exact → Node.showsNoDataAll inLoop nodes = true) →
      (Node.scriptAll nodes).Follows (Scope.Similar inLoop)
        fun shown shown' => exact → shown = shown'
  | [], _, _ => .nil
  | node :: rest, _, hexact =>
      .append
        (Node.follows_script_similar node fun hex =>
          ((Bool.and_eq_true _ _).mp (hexact hex)).1)
        (Node.follows_scriptAll_similar rest fun hex =>
          ((Bool.and_eq_true _ _).mp (hexact hex)).2)

end

end Nodes

variable {c c' : Context}

/-- What two renders with similar contexts come to. -/
theorem Template.yield_similar (h : c.Similar c') (t : Template) (options : Options) :
    (t.yield c options).degradations = (t.yield c' options).degradations ∧
      (t.yield c options).failure = (t.yield c' options).failure ∧
      (Node.showsNoDataAll false t.nodes = true → t.yield c options = t.yield c' options) := by
  have hlike := Node.follows_scriptAll_similar t.nodes id options.maxDepth
    (Scope.Similar.ofContext h)
  obtain ⟨hdegradations, hfailure⟩ := perform_like options hlike
  refine ⟨hdegradations, hfailure, fun hshown => ?_⟩
  have hsame := hlike.imp fun _ _ => Action.Like.mono fun htext => htext hshown
  rw [Template.yield, Template.yield, Action.LikeAll.eq hsame]

/-- With similar contexts a render fails with the same error, or succeeds with the same warnings;
of a template that shows no data the output is the same too. -/
theorem Template.render_similar (h : c.Similar c') (t : Template) (options : Options)
    (name : Option String) :
    (∃ e, (t.render c options name).result = .error e ∧
        (t.render c' options name).result = .error e) ∨
      ∃ r r' : Report, (t.render c options name).result = .ok r ∧
        (t.render c' options name).result = .ok r' ∧ r.warnings = r'.warnings ∧
        (Node.showsNoDataAll false t.nodes = true → r.output = r'.output) := by
  obtain ⟨hdegradations, hfailure, hsame⟩ := Template.yield_similar h t options
  rw [Template.result_render, Template.result_render]
  cases hf : (t.yield c options).failure with
  | some e =>
      refine .inl ⟨e, Yield.report_of_failure hf, Yield.report_of_failure ?_⟩
      rw [← hfailure, hf]
  | none =>
      have hf' : (t.yield c' options).failure = none := by rw [← hfailure, hf]
      refine .inr ⟨_, _, Yield.report_of_completed hf, Yield.report_of_completed hf',
        congrArg Degradation.inSourceOrder hdegradations, fun hshown => ?_⟩
      rw [hsame hshown]

/-- An element that is spelled like an opener is text as any other. -/
theorem Template.render_similar_opener :
    ∃ (t : Template) (c c' : Context),
      Template.compile ("\x7b\x7b#each rows\x7d\x7d\x7b\x7b@last\x7d\x7d" ++
        "\x7b\x7b#if this\x7d\x7d+\x7b\x7b/if\x7d\x7d\x7b\x7b/each\x7d\x7d") = .ok t ∧
      c.get? "rows" = some (.list [.string "\x7b\x7b#if x\x7d\x7d", .string ""]) ∧
      c'.get? "rows" = some (.list [.bool true, .bool false]) ∧ c.Similar c' ∧
      Node.showsNoDataAll false t.nodes = true ∧
      (t.render c {} none).result = .ok ⟨"false+true", []⟩ ∧
      (t.render c' {} none).result = .ok ⟨"false+true", []⟩ := by
  let t : Template := ⟨"\x7b\x7b#each rows\x7d\x7d\x7b\x7b@last\x7d\x7d" ++
      "\x7b\x7b#if this\x7d\x7d+\x7b\x7b/if\x7d\x7d\x7b\x7b/each\x7d\x7d",
    [.block .iteration ⟨"rows", ⟨8, 12⟩⟩
      [.interpolation "@last" ⟨14, 23⟩,
        .block .conditional ⟨"this", ⟨29, 33⟩⟩ [.literal "+" ⟨35, 36⟩] ⟨23, 43⟩] ⟨0, 52⟩]⟩
  let c : Context := ⟨[("rows", .list [.string "\x7b\x7b#if x\x7d\x7d", .string ""])]⟩
  let c' : Context := ⟨[("rows", .list [.bool true, .bool false])]⟩
  have hrows : Value.Similar (.list [.string "\x7b\x7b#if x\x7d\x7d", .string ""])
      (.list [.bool true, .bool false]) :=
    .list (.cons (.scalar rfl rfl (by decide)) (.cons (.scalar rfl rfl (by decide)) .nil))
  have hsimilar : c.Similar c' := by
    intro name
    rw [Context.get?, Context.get?, Bindings.get?_cons, Bindings.get?_cons]
    split
    · exact .some hrows
    · exact .none
  have hrender : (t.render c' {} none).result = .ok ⟨"false+true", []⟩ := by
    rw [Template.result_render]
    cbv
  refine ⟨t, c, c', by cbv, rfl, rfl, hsimilar, by decide, ?_, hrender⟩
  rcases Template.render_similar hsimilar t {} none with
    ⟨e, -, herror⟩ | ⟨r, r', hr, hr', hwarnings, houtput⟩
  · rw [hrender] at herror
    cases herror
  · obtain ⟨output, warnings⟩ := r
    obtain ⟨output', warnings'⟩ := r'
    obtain rfl : output = output' := houtput (by decide)
    obtain rfl : warnings = warnings' := hwarnings
    rw [hr, ← hr', hrender]

end Stencil

import Stencil.Proofs.Render.Agreement
import Stencil.Proofs.Render.Depth
import Stencil.Proofs.Template.Enclosing

/-!
# Loops unrolled

A loop renders like its body once for each element, each time with a context of its own in which
the element's fields and the loop state are written over the context around the loop
(`Template.render_loop`). In that context nothing is left of the frame, the level of depth and the
shared output of the loop: a frame on the context and the context written over agree as scopes
(`Scope.agrees_inIteration`), a body has one level less than its loop, and the parts of an output
are joined.
-/

namespace Stencil

/-! ## The context of an iteration -/

namespace Bindings

variable {α : Type}

/-- The bindings, with those of `upper` in place of the ones of the same name. -/
def overlay (upper b : Bindings α) : Bindings α :=
  upper.foldr (fun (name, value) b => b.insert name value) b

theorem get?_overlay (upper b : Bindings α) (name : String) :
    (upper.overlay b).get? name = (upper.get? name).or (b.get? name) := by
  induction upper with
  | nil => rfl
  | cons entry rest ih =>
      obtain ⟨k, v⟩ := entry
      rw [overlay, List.foldr_cons, ← overlay, get?_insert, get?_cons, ih]
      split <;> rfl

theorem get?_filter (b : Bindings α) (p : String → Bool) (name : String) :
    get? (b.filter fun entry => p entry.1) name = if p name then b.get? name else none := by
  induction b with
  | nil => exact (ite_self none).symm
  | cons entry rest ih =>
      obtain ⟨k, v⟩ := entry
      rw [List.filter_cons]
      by_cases hname : name = k
      · subst hname
        cases hp : p name <;> simp_all [get?_cons]
      · cases hp : p k <;> simp_all [get?_cons]

end Bindings

namespace Value

def fields : Value → Bindings Value
  | map fields => fields
  | _ => []

theorem field?_eq (v : Value) (name : String) : v.field? name = v.fields.get? name := by
  cases v <;> rfl

end Value

namespace Context

def withoutReserved (c : Context) : Context :=
  ⟨c.bindings.filter fun entry => !Path.isReserved entry.1⟩

def overlay (c : Context) (upper : Bindings Value) : Context := ⟨upper.overlay c.bindings⟩

/-- The context in which a loop shows its element number `index` of `length` ones. -/
def inIteration (c : Context) (item : Value) (index length : Nat) : Context :=
  (c.withoutReserved.overlay item.fields).overlay
    [("this", item), ("@index", .number (.ofNat index)), ("@first", .bool (index = 0)),
      ("@last", .bool (index + 1 = length)), ("@length", .number (.ofNat length))]

theorem get?_overlay (c : Context) (upper : Bindings Value) (name : String) :
    (c.overlay upper).get? name = (upper.get? name).or (c.get? name) :=
  Bindings.get?_overlay upper c.bindings name

theorem get?_withoutReserved (c : Context) (name : String) :
    c.withoutReserved.get? name = if !Path.isReserved name then c.get? name else none :=
  Bindings.get?_filter c.bindings (fun name => !Path.isReserved name) name

/-- What the frame of an iteration does not know is looked up in the context around the loop. -/
theorem get?_inIteration (c : Context) (item : Value) (index length : Nat) (name : String) :
    (c.inIteration item index length).get? name =
      ((⟨item, index, length⟩ : LoopFrame).lookup? name).or (c.withoutReserved.get? name) := by
  rw [inIteration, get?_overlay, get?_overlay, ← Value.field?_eq, LoopFrame.lookup?]
  simp only [Bindings.get?_cons, Bindings.get?_nil]
  split_ifs <;> rfl

end Context

theorem Scope.agrees_inIteration (c : Context) (item : Value) (index length : Nat) :
    ((Scope.ofContext c).push ⟨item, index, length⟩).Agrees
      (.ofContext (c.inIteration item index length)) where
  innermost name hname := by
    show (⟨item, index, length⟩ : LoopFrame).lookup? name =
      (c.inIteration item index length).get? name
    rw [Context.get?_inIteration, Context.get?_withoutReserved]
    rcases Bool.or_eq_true_iff.mp hname with hreserved | hthis
    -- The context around the loop keeps no reserved name, and `this` is in the frame.
    · simp [hreserved]
    · obtain rfl := of_decide_eq_true hthis
      rfl
  outward name hname := by
    show (List.findSome? _ [_]).or (c.get? name) = (c.inIteration item index length).get? name
    rw [Context.get?_inIteration, Context.get?_withoutReserved, hname, List.findSome?_singleton]
    rfl

/-! ## The law -/

/-- What a loop over some elements does, one level below its own room. -/
theorem Node.script_loop (subject : Reference) (body : List Node) (span : Span) {scope : Scope}
    {items : List Value} (hitems : scope.resolve? subject.path = some (.list items))
    (hnonempty : items ≠ []) (room : Nat) :
    (Node.block .iteration subject body span).script (room + 1) scope =
      items.zipIdx.flatMap fun (item, index) =>
        Node.scriptAll body room (scope.push ⟨item, index, items.length⟩) := by
  show Script.iteration subject (Node.scriptAll body) (room + 1) scope = _
  rw [Script.iteration, hitems]
  cases items with
  | nil => exact absurd rfl hnonempty
  | cons item rest =>
      show (Node.scriptAll body).inFrames (Render.framesOf (item :: rest)) room scope = _
      rw [Script.inFrames, Render.framesOf, List.flatMap_map]

theorem Node.script_loop_shift {path : String} {body : List Node} {span span' : Span}
    {context : Context} {items : List Value}
    (hitems : (Scope.ofContext context).resolve? path = some (.list items)) (hnonempty : items ≠ [])
    (room n : Nat) :
    (Node.block .iteration ⟨path, span⟩ (Node.shiftAll n body) span').script (room + 1)
        (.ofContext context) =
      (items.zipIdx.flatMap fun (item, index) =>
        Node.scriptAll body room (.ofContext (context.inIteration item index items.length))).map
          (Action.shift n) := by
  rw [Node.script_loop ⟨path, span⟩ (Node.shiftAll n body) span' hitems hnonempty,
    Node.scriptAll_shiftAll, List.map_flatMap]
  congr 1
  funext (item, index)
  have hagrees := Scope.agrees_inIteration context item index items.length
  exact congrArg (List.map (Action.shift n)) (Node.respects_scriptAll body room hagrees)

theorem BlockKind.openingText_iteration (path : String) :
    BlockKind.iteration.openingText path = "\x7b\x7b#each " ++ path ++ "\x7d\x7d" :=
  openingText_eq .iteration path

/-- A loop over a list renders like its body once for each element, in the contexts of the
iterations and with one level less: it fails as the first of them that fails, and else shows their
outputs one after the other and warns of all their substitutions, moved behind the opener. A loop
over an empty list shows nothing. -/
theorem Template.render_loop {path body : String} {t whole : Template} {context : Context}
    {items : List Value} (hpath : Path.isValid path = true) (ht : Template.compile body = .ok t)
    (hwhole : Template.compile
      ("\x7b\x7b#each " ++ path ++ "\x7d\x7d" ++ body ++ "\x7b\x7b/each\x7d\x7d") = .ok whole)
    (hitems : (Scope.ofContext context).resolve? path = some (.list items))
    (options : Options) (name : Option String) :
    (items = [] → (whole.render context options name).result = .ok ⟨"", []⟩) ∧
      ∀ depth, items ≠ [] → options.maxDepth = depth + 1 →
        (whole.render context options name).result =
          ((items.zipIdx.mapM fun (item, index) =>
            (t.render (context.inIteration item index items.length)
              { options with maxDepth := depth } name).result).map
            (Report.shift ("\x7b\x7b#each " ++ path ++ "\x7d\x7d").utf8ByteSize ∘
              Report.concat)).mapError (RenderError.withLimit (depth + 1)) := by
  rw [← BlockKind.openingText_iteration] at hwhole ⊢
  obtain ⟨span, span', hnodes⟩ := Template.nodes_enclose hpath ht hwhole
  generalize hn : (BlockKind.iteration.openingText path).utf8ByteSize = n at hnodes ⊢
  simp only [Template.result_render, Template.yield_of_nodes_eq hnodes]
  refine ⟨fun hempty => ?_, fun depth hnonempty hdepth => ?_⟩
  · subst hempty
    have hscript : (Node.block .iteration ⟨path, span⟩ (Node.shiftAll n t.nodes) span').script
        options.maxDepth (.ofContext context) = [] := by
      show Script.iteration _ _ _ _ = _
      rw [Script.iteration, hitems]
    rw [hscript, perform_nil]
    simp [Yield.report, Yield.nothing, Degradation.inSourceOrder]
  · rw [hdepth, Node.script_loop_shift hitems hnonempty, report_perform_shift hdepth,
      report_flatMap]
    -- Moving the warnings and setting the limit act on different results.
    have hcommute : ∀ reports : Except RenderError (List Report),
        ((reports.map Report.concat).mapError (RenderError.withLimit (depth + 1))).map
            (Report.shift n) =
          (reports.map (Report.shift n ∘ Report.concat)).mapError
            (RenderError.withLimit (depth + 1)) := by
      intro reports
      cases reports <;> rfl
    exact hcommute _

/-- Two rows of which the second has no name. -/
theorem Template.render_loop_rows :
    ∃ whole, Template.compile
        ("\x7b\x7b#each " ++ "rows" ++ "\x7d\x7d" ++ "\x7b\x7bname\x7d\x7d;" ++
          "\x7b\x7b/each\x7d\x7d") = .ok whole ∧
      (whole.render ⟨[("rows", .list [.map [("name", .string "a")], .null])]⟩ {} none).result =
        .ok ⟨"a;;", [⟨.missing, "name", ⟨14, 22⟩⟩]⟩ := by
  have hbody : Template.compile "\x7b\x7bname\x7d\x7d;" = .ok ⟨"\x7b\x7bname\x7d\x7d;",
      [.interpolation "name" ⟨0, 8⟩, .literal ";" ⟨8, 9⟩]⟩ := by
    cbv
  have hwhole : Template.compile
      ("\x7b\x7b#each " ++ "rows" ++ "\x7d\x7d" ++ "\x7b\x7bname\x7d\x7d;" ++
        "\x7b\x7b/each\x7d\x7d") =
      .ok ⟨"\x7b\x7b#each rows\x7d\x7d\x7b\x7bname\x7d\x7d;\x7b\x7b/each\x7d\x7d",
        [.block .iteration ⟨"rows", ⟨8, 12⟩⟩
          [.interpolation "name" ⟨14, 22⟩, .literal ";" ⟨22, 23⟩] ⟨0, 32⟩]⟩ := by
    cbv
  have hitems : (Scope.ofContext ⟨[("rows", .list [.map [("name", .string "a")], .null])]⟩).resolve?
      "rows" = some (.list [.map [("name", .string "a")], .null]) := by
    cbv
  have hloop := (Template.render_loop (by decide) hbody hwhole hitems {} none).2 63
    (List.cons_ne_nil _ _) rfl
  have hfirst : (Scope.ofContext (Context.inIteration
      ⟨[("rows", .list [.map [("name", .string "a")], .null])]⟩
      (.map [("name", .string "a")]) 0 2)).resolve? "name" = some (.string "a") := rfl
  have hsecond : (Scope.ofContext (Context.inIteration
      ⟨[("rows", .list [.map [("name", .string "a")], .null])]⟩ .null 1 2)).resolve? "name" =
      none := rfl
  refine ⟨_, hwhole, hloop.trans ?_⟩
  simp only [Template.result_render, Template.yield, Node.scriptAll, Node.script,
    Script.interpolate, List.zipIdx_cons, List.zipIdx_nil, List.mapM_cons, List.mapM_nil,
    List.length_cons, List.length_nil, hfirst, hsecond]
  cbv

end Stencil

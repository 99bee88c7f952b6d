import Stencil.Proofs.Render.Likeness

/-!
# Scopes that agree

A script asks its scope for two things only: what the innermost frame has for a name of loop state
or for `this`, and what the innermost frame that knows any other name has for it. Scopes that agree
on these answers agree still with one more frame on both, so no script can tell them apart
(`Node.respects_scriptAll`).
-/

namespace Stencil

/-- The two scopes give the same answer to every question that a script can ask. -/
structure Scope.Agrees (s s' : Scope) : Prop where
  innermost : ∀ name, (Path.isReserved name || name = "this") = true →
    s.innermost? name = s'.innermost? name
  outward : ∀ name, Path.isReserved name = false → s.outward? name = s'.outward? name

theorem Path.isReserved_of_segments {path first : String} {rest : List String}
    (h : segments path = first :: rest) (hreserved : isReserved path = false) :
    isReserved first = false := by
  rw [segments, List.map_eq_cons_iff] at h
  obtain ⟨part, parts, hparts, rfl, -⟩ := h
  rw [isReserved, String.toList_ofList]
  rw [isReserved] at hreserved
  cases hpath : path.toList with
  | nil =>
      rw [hpath, List.splitOn_nil] at hparts
      rw [← (List.cons.inj hparts).1]
      rfl
  | cons c cs =>
      rw [hpath] at hparts hreserved
      rw [List.splitOn_cons_eq_if_modifyHead] at hparts
      split at hparts
      · rw [← (List.cons.inj hparts).1]
        rfl
      · cases hrest : cs.splitOn '.' with
        | nil =>
            rw [hrest] at hparts
            cases hparts
        | cons next others =>
            rw [hrest] at hparts
            rw [← (List.cons.inj hparts).1]
            exact hreserved

namespace Scope.Agrees

variable {s s' : Scope}

theorem push (h : s.Agrees s') (frame : LoopFrame) : (s.push frame).Agrees (s'.push frame) where
  innermost _ _ := rfl
  outward name hname := by
    have houter := h.outward name hname
    simp only [outward?, Scope.push, List.findSome?_cons] at houter ⊢
    cases frame.lookup? name with
    | none => exact houter
    | some value => rfl

theorem resolve?_eq (h : s.Agrees s') (path : String) : s.resolve? path = s'.resolve? path := by
  rw [resolve?, resolve?]
  -- Only the first segment of a longer path is looked up in a frame.
  by_cases hinnermost : (Path.isReserved path || path = "this") = true
  · rw [if_pos hinnermost, if_pos hinnermost, h.innermost path hinnermost]
  · rw [if_neg hinnermost, if_neg hinnermost]
    have hreserved : Path.isReserved path = false := by
      cases hpath : Path.isReserved path with
      | false => rfl
      | true => exact absurd (by rw [hpath, Bool.true_or]) hinnermost
    cases hsegments : Path.segments path with
    | nil => rfl
    | cons first rest =>
        simp only [h.outward first (Path.isReserved_of_segments hsegments hreserved)]

end Scope.Agrees

/-- The script does the same in scopes that agree. -/
def Script.Respects (script : Script) : Prop :=
  ∀ room {s s' : Scope}, s.Agrees s' → script room s = script room s'

section Nodes

variable {s s' : Scope}

theorem Scope.Agrees.rel_resolve? (h : s.Agrees s') (path : String) :
    Option.Rel Eq (s.resolve? path) (s'.resolve? path) := by
  rw [h.resolve?_eq]
  cases s'.resolve? path with
  | none => exact .none
  | some value => exact .some rfl

mutual

theorem Node.follows_script_agrees : ∀ node : Node, node.script.Follows Scope.Agrees Eq
  | .literal _ _ => .emit rfl
  | .interpolation path span =>
      .interpolate .eq span (fun hs => hs.rel_resolve? path) fun _ _ _ hvalue =>
        congrArg Value.render hvalue
  | .block kind subject body _ =>
      .block (fun _ => Scope.Agrees) false .eq (fun hs => hs.rel_resolve? subject.path)
        (fun index length hs hitem => hitem ▸ hs.push ⟨_, index, length⟩) kind
        (Node.follows_scriptAll_agrees body)

theorem Node.follows_scriptAll_agrees : ∀ nodes : List Node,
    (Node.scriptAll nodes).Follows Scope.Agrees Eq
  | [] => .nil
  | node :: rest => .append (Node.follows_script_agrees node) (Node.follows_scriptAll_agrees rest)

end

theorem Node.respects_scriptAll (nodes : List Node) : (Node.scriptAll nodes).Respects :=
  fun room _ _ hs => (Node.follows_scriptAll_agrees nodes room hs).eq

end Nodes

end Stencil

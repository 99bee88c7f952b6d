import Stencil.Proofs.Store.Registration

/-!
# Sessions

In a session any number of clients use one engine. Calls begin and end at any time, and of the calls
under way any one may make its next access, so every interleaving of their accesses is a run of
steps. What a call gets to see depends on the others; but the store always answers as the plain map
that the accesses so far make of the names (`Session.refines_lastSource`): an access changes both in
the same way (`Session.Step.tracks`), and nothing else changes either.
-/

namespace Stencil

/-- A call under way: what was asked for, and what is left to do. -/
structure Call where
  operation : Operation
  rest : Client operation.Result

/-- The store and the options that the clients share, the calls under way, and the accesses so far,
newest first. -/
structure Session where
  store : Store
  options : Options
  calls : List Call
  history : List Access

namespace Session

inductive Step : Session → Session → Prop
  | call (s : Session) (operation : Operation) :
      Step s { s with calls := ⟨operation, operation.client s.options⟩ :: s.calls }
  /-- A call makes its next access. -/
  | access {s : Session} (before after : List Call) {operation : Operation} {access : Access}
      {next : access.Reply → Client operation.Result}
      (h : s.calls = before ++ ⟨operation, .access access next⟩ :: after) :
      Step s ⟨(s.store.access access).1, s.options,
        before ++ ⟨operation, next (s.store.access access).2⟩ :: after, access :: s.history⟩
  /-- A call that has nothing left to do gives its result. -/
  | answer {s : Session} (before after : List Call) {operation : Operation}
      {result : operation.Result} (h : s.calls = before ++ ⟨operation, .done result⟩ :: after) :
      Step s { s with calls := before ++ after }
  | configure (s : Session) (options : Options) : Step s { s with options }

/-- What can come about from a store that no client has used. -/
inductive Reachable (start : Store) : Session → Prop
  | start (options : Options) : Reachable start ⟨start, options, [], []⟩
  | step {s s' : Session} (h : Reachable start s) (hstep : Step s s') : Reachable start s'

variable {start : Store} {known : String → Option String} {s s' : Session}

/-- A call of a single access is made and answered while others are under way. -/
theorem Reachable.serve (h : Reachable start s) (access : Access) :
    Reachable start ⟨(s.store.access access).1, s.options, s.calls, access :: s.history⟩ := by
  have hcall := h.step (.call s (.store access))
  have haccess := hcall.step (.access [] s.calls rfl)
  exact haccess.step (.answer [] s.calls rfl)

theorem Step.tracks (hstep : Step s s') (h : s.store.Tracks (lastSource known s.history)) :
    s'.store.Tracks (lastSource known s'.history) := by
  cases hstep with
  | call operation => exact h
  | @access before after operation access next hcalls =>
      rw [lastSource_cons]
      exact h.access access
  | answer before after hcalls => exact h
  | configure options => exact h

theorem Reachable.tracks (hstart : start.Tracks known) (h : Reachable start s) :
    s.store.Tracks (lastSource known s.history) := by
  induction h with
  | start options => exact hstart
  | step _ hstep ih => exact hstep.tracks ih

/-- A validation under way looks the name up, and fails if it is not there. -/
theorem Reachable.validate_gone {name : String} {store : Store} {options : Options}
    {history : List Access}
    (h : Reachable start
      ⟨store, options, [⟨.validate name, Operation.client options (.validate name)⟩], history⟩)
    (hgone : store.source? name = none) :
    Reachable start ⟨store, options, [⟨.validate name, .done (.error (.notFound name))⟩],
      .source name :: history⟩ := by
  have hcalls : [Call.mk (.validate name)
      (.done ((Client.found name (store.source? name)).map Validation.ofSource))] =
      [⟨.validate name, .done (.error (.notFound name))⟩] := by
    rw [hgone]
    rfl
  have haccess := h.step (.access [] [] rfl)
  rw [← hcalls]
  exact haccess

/-- However the calls of clients interleave, the store answers as the map of the last registrations.
A registration that is refused leaves this map as it was, and a call that is made with the store for
itself gives what the engine's function gives. -/
theorem refines_lastSource
    (hstart : start = .empty ∧ known = (fun _ => none) ∨
      start = .builtin ∧ known = Builtin.source?)
    (h : Reachable start s) :
    s.store.Refines (lastSource known s.history) ∧
      (∀ name source e, Template.compile source = .error e →
        lastSource known (.register name source :: s.history) = lastSource known s.history) ∧
      ∀ operation : Operation,
        (operation.client s.options).run s.store = operation.perform ⟨s.store, s.options⟩ := by
  have htracks : start.Tracks known := by
    rcases hstart with ⟨rfl, rfl⟩ | ⟨rfl, rfl⟩
    · exact Store.tracks_empty
    · exact Store.tracks_builtin
  refine ⟨(h.tracks htracks).refines, fun name source e hcompile => ?_, fun operation => ?_⟩
  · rw [lastSource_cons, Access.update_register_of_error _ name hcompile]
  · exact operation.run_client ⟨s.store, s.options⟩

/-- One client replaces a built-in template and then fails to replace it again, while another one
removes a template that a third is about to validate. -/
theorem refines_lastSource_removed :
    ∃ s : Session, Reachable .builtin s ∧
      s.history = [.source "feature-list", .register "manifest" "\x7b\x7b",
        .unregister "feature-list", .register "manifest" "x"] ∧
      s.calls = [⟨.validate "feature-list", .done (.error (.notFound "feature-list"))⟩] ∧
      s.store.source? "manifest" = some "x" ∧
      s.store.source? "recommendations" = some Builtin.recommendations ∧
      "feature-list" ∉ s.store.names := by
  have hrefused : Template.compile "\x7b\x7b" = .error ⟨0, ⟨1, 1⟩, .unterminated⟩ := by cbv
  have hcompile : Template.compile "x" = .ok ⟨"x", [.literal "x" ⟨0, 1⟩]⟩ := by cbv
  have hcalled : Reachable .builtin
      ⟨.builtin, {}, [⟨.validate "feature-list", Operation.client {} (.validate "feature-list")⟩],
        []⟩ := (Reachable.start {}).step (.call _ _)
  obtain ⟨store, hserved⟩ : ∃ store, Reachable .builtin
      ⟨store, {}, [⟨.validate "feature-list", Operation.client {} (.validate "feature-list")⟩],
        [.register "manifest" "\x7b\x7b", .unregister "feature-list", .register "manifest" "x"]⟩ :=
    ⟨_, ((hcalled.serve (.register "manifest" "x")).serve
      (.unregister "feature-list")).serve (.register "manifest" "\x7b\x7b")⟩
  obtain ⟨hrefines, -, -⟩ := refines_lastSource (.inr ⟨rfl, rfl⟩) hserved
  have hknown : lastSource Builtin.source? [.register "manifest" "\x7b\x7b",
      .unregister "feature-list", .register "manifest" "x"] = fun name =>
      if name = "feature-list" then none
      else if name = "manifest" then some "x" else Builtin.source? name := by
    rw [lastSource_cons, Access.update_register_of_error _ _ hrefused, lastSource_cons,
      Access.update_unregister, lastSource_cons, Access.update_register_of_ok _ _ hcompile]
    rfl
  rw [hknown] at hrefines
  refine ⟨_, hserved.validate_gone (hrefines.source _), rfl, rfl, hrefines.source _,
    hrefines.source _, fun hmem => ?_⟩
  have hsome := (hrefines.mem_names _).mp hmem
  cases hsome

end Session

end Stencil

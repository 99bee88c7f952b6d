import Stencil.Proofs.Store.Client
import Mathlib

/-!
# Batches and fallbacks

A batch renders one request after the other, and a fallback renders a second template if the first
one fails. Neither does anything of its own: what comes out and what is told is put together from
single renders. A batch succeeds if every request does by itself (`Engine.renderAll_of_answers`),
and otherwise it ends with the first request that fails (`Engine.renderAll_of_failure`); one of the
two is always the case (`Engine.answers_or_failure`). `Engine.composed_of_single_renders` puts this
together with what a fallback does, and with what both do to the store while other clients use it:
nothing.
-/

namespace Stencil

/-! ## Chains of outcomes -/

namespace Outcome

variable {ε ε' α β γ : Type}

theorem bind_of_ok {o : Outcome ε α} {value : α} (h : o.result = .ok value)
    (f : α → Outcome ε β) : o >>= f = ⟨(f value).result, o.events ++ (f value).events⟩ := by
  show o.bind f = _
  unfold Outcome.bind
  rw [h]

theorem bind_of_error {o : Outcome ε α} {e : ε} (h : o.result = .error e)
    (f : α → Outcome ε β) : o >>= f = ⟨.error e, o.events⟩ := by
  show o.bind f = _
  unfold Outcome.bind
  rw [h]

/-- What is shown of the value changes nothing that is told. -/
theorem map_eq (f : α → β) (o : Outcome ε α) : f <$> o = ⟨o.result.map f, o.events⟩ := by
  rcases o with ⟨e | value, events⟩
  · rfl
  · show Outcome.mk _ (events ++ []) = _
    rw [List.append_nil]
    rfl

theorem bind_assoc (o : Outcome ε α) (f : α → Outcome ε β) (g : β → Outcome ε γ) :
    o >>= f >>= g = o >>= fun value => f value >>= g := by
  cases hresult : o.result with
  | error e => rw [bind_of_error hresult, bind_of_error hresult, bind_of_error rfl]
  | ok value =>
      rw [bind_of_ok hresult, bind_of_ok hresult]
      cases hnext : (f value).result with
      | error e => rw [bind_of_error hnext, bind_of_error rfl]
      | ok value' => rw [bind_of_ok hnext, bind_of_ok rfl, List.append_assoc]

instance : LawfulMonad (Outcome ε) := .mk' _
  (fun o => by rw [map_eq, Except.map_id, id])
  (fun value f => rfl)
  bind_assoc

theorem orElse_of_ok {o : Outcome ε α} {value : α} (h : o.result = .ok value)
    (f : ε → Outcome ε α) : o.orElse f = o := by
  obtain ⟨result, events⟩ := o
  obtain rfl : result = .ok value := h
  rfl

theorem orElse_of_error {o : Outcome ε α} {e : ε} (h : o.result = .error e)
    (f : ε → Outcome ε' α) : o.orElse f = ⟨(f e).result, o.events ++ (f e).events⟩ := by
  unfold Outcome.orElse
  rw [h]

end Outcome

/-! ## Requests one by one -/

namespace Engine

variable (e : Engine)

/-- What a request of a batch comes to by itself. -/
def answer (request : String × Context) : Outcome TemplateError String :=
  e.render request.1 request.2

/-- Every request succeeds by itself, with these outputs. -/
def Answers (requests : List (String × Context)) (outputs : List String) : Prop :=
  List.Forall₂ (fun request output => (e.answer request).result = .ok output) requests outputs

/-- The first request that fails by itself comes after those of `before`, with this error. -/
structure FailsAfter (requests before : List (String × Context)) (failing : String × Context)
    (error : TemplateError) : Prop where
  split : ∃ after, requests = before ++ failing :: after
  answered : ∃ outputs, e.Answers before outputs
  failed : (e.answer failing).result = .error error

/-- What single renders of the requests tell, one after the other. -/
def eventsOf (requests : List (String × Context)) : List Event :=
  requests.flatMap fun request => (e.answer request).events

variable {e} {requests requests' before : List (String × Context)} {outputs outputs' : List String}
  {failing : String × Context} {error : TemplateError}

theorem renderAll_cons (request : String × Context) (rest : List (String × Context)) :
    e.renderAll (request :: rest) =
      e.answer request >>= fun output => (output :: ·) <$> e.renderAll rest := rfl

theorem renderAll_append (first second : List (String × Context)) :
    e.renderAll (first ++ second) = do
      let outputs ← e.renderAll first
      let outputs' ← e.renderAll second
      return outputs ++ outputs' := by
  induction first with
  | nil => simp [renderAll]
  | cons request rest ih =>
      rw [List.cons_append, renderAll_cons, renderAll_cons, ih]
      simp

theorem renderAll_of_answers (h : e.Answers requests outputs) :
    e.renderAll requests = ⟨.ok outputs, e.eventsOf requests⟩ := by
  induction h with
  | nil => rfl
  | @cons request output requests outputs hrequest _ ih =>
      rw [renderAll_cons, Outcome.bind_of_ok hrequest, ih, Outcome.map_eq]
      rfl

theorem renderAll_of_failure (h : e.FailsAfter requests before failing error) :
    e.renderAll requests = ⟨.error error, e.eventsOf (before ++ [failing])⟩ := by
  obtain ⟨⟨after, rfl⟩, ⟨outputs, hanswered⟩, hfailed⟩ := h
  have hrest : e.renderAll (failing :: after) = ⟨.error error, (e.answer failing).events⟩ := by
    rw [renderAll_cons, Outcome.bind_of_error hfailed]
  rw [renderAll_append, renderAll_of_answers hanswered, Outcome.bind_of_ok rfl, hrest,
    Outcome.bind_of_error rfl]
  simp [eventsOf]

/-- The requests all succeed, or one of them is the first that does not. -/
theorem answers_or_failure (e : Engine) (requests : List (String × Context)) :
    (∃ outputs, e.Answers requests outputs) ∨
      ∃ before failing error, e.FailsAfter requests before failing error := by
  induction requests with
  | nil => exact .inl ⟨[], .nil⟩
  | cons request rest ih =>
      rcases hrequest : (e.answer request).result with error | output
      · exact .inr ⟨[], request, error, ⟨⟨rest, rfl⟩, ⟨[], .nil⟩, hrequest⟩⟩
      · rcases ih with ⟨outputs, hrest⟩ | ⟨before, failing, error, ⟨after, rfl⟩,
          ⟨outputs, hanswered⟩, hfailed⟩
        · exact .inl ⟨output :: outputs, .cons hrequest hrest⟩
        · exact .inr ⟨request :: before, failing, error,
            ⟨⟨after, rfl⟩, ⟨output :: outputs, .cons hrequest hanswered⟩, hfailed⟩⟩

/-! ## The batch as a whole -/

variable {separator : String}

theorem renderJoined_eq (separator : String) (requests : List (String × Context)) :
    e.renderJoined separator requests = separator.intercalate <$> e.renderAll requests := rfl

theorem renderJoined_of_answers (h : e.Answers requests outputs) :
    e.renderJoined separator requests =
      ⟨.ok (separator.intercalate outputs), e.eventsOf requests⟩ := by
  rw [renderJoined_eq, renderAll_of_answers h, Outcome.map_eq]
  rfl

theorem renderJoined_of_failure (h : e.FailsAfter requests before failing error) :
    e.renderJoined separator requests = ⟨.error error, e.eventsOf (before ++ [failing])⟩ := by
  rw [renderJoined_eq, renderAll_of_failure h]
  rfl

theorem renderJoined_eq_ok_iff {output : String} {events : List Event} :
    e.renderJoined separator requests = ⟨.ok output, events⟩ ↔
      ∃ outputs, e.Answers requests outputs ∧ output = separator.intercalate outputs ∧
        events = e.eventsOf requests := by
  constructor
  · intro h
    rcases e.answers_or_failure requests with ⟨outputs, hanswers⟩ | ⟨before, failing, error, hfails⟩
    · rw [renderJoined_of_answers hanswers] at h
      cases h
      exact ⟨outputs, hanswers, rfl, rfl⟩
    · rw [renderJoined_of_failure hfails] at h
      cases h
  · rintro ⟨outputs, hanswers, rfl, rfl⟩
    exact renderJoined_of_answers hanswers

theorem renderJoined_eq_error_iff {events : List Event} :
    e.renderJoined separator requests = ⟨.error error, events⟩ ↔
      ∃ before failing, e.FailsAfter requests before failing error ∧
        events = e.eventsOf (before ++ [failing]) := by
  constructor
  · intro h
    rcases e.answers_or_failure requests with ⟨outputs, hanswers⟩ | ⟨before, failing, error, hfails⟩
    · rw [renderJoined_of_answers hanswers] at h
      cases h
    · rw [renderJoined_of_failure hfails] at h
      cases h
      exact ⟨before, failing, hfails, rfl⟩
  · rintro ⟨before, failing, hfails, rfl⟩
    exact renderJoined_of_failure hfails

theorem Answers.append (h : e.Answers requests outputs) (h' : e.Answers requests' outputs') :
    e.Answers (requests ++ requests') (outputs ++ outputs') :=
  List.rel_append h h'

theorem Answers.ne_nil (h : e.Answers requests outputs) (hne : requests ≠ []) : outputs ≠ [] := by
  rintro rfl
  exact hne (List.forall₂_nil_right_iff.mp h)

theorem FailsAfter.append (h : e.FailsAfter requests before failing error) :
    e.FailsAfter (requests ++ requests') before failing error := by
  obtain ⟨⟨after, rfl⟩, hanswered, hfailed⟩ := h
  exact ⟨⟨after ++ requests', by simp⟩, hanswered, hfailed⟩

theorem Answers.append_failure (h : e.Answers requests outputs)
    (h' : e.FailsAfter requests' before failing error) :
    e.FailsAfter (requests ++ requests') (requests ++ before) failing error := by
  obtain ⟨⟨after, rfl⟩, ⟨outputs', hanswered⟩, hfailed⟩ := h'
  exact ⟨⟨after, by simp⟩, ⟨outputs ++ outputs', h.append hanswered⟩, hfailed⟩

theorem eventsOf_append (requests requests' : List (String × Context)) :
    e.eventsOf (requests ++ requests') = e.eventsOf requests ++ e.eventsOf requests' :=
  List.flatMap_append

/-- The outputs of both parts are joined by one more separator. -/
theorem renderJoined_append (hne : requests ≠ []) (hne' : requests' ≠ []) :
    e.renderJoined separator (requests ++ requests') = do
      let output ← e.renderJoined separator requests
      let output' ← e.renderJoined separator requests'
      return output ++ separator ++ output' := by
  rcases e.answers_or_failure requests with ⟨outputs, hanswers⟩ | ⟨before, failing, error, hfails⟩
  · rw [renderJoined_of_answers hanswers, Outcome.bind_of_ok rfl]
    rcases e.answers_or_failure requests' with
      ⟨outputs', hanswers'⟩ | ⟨before, failing, error, hfails⟩
    · rw [renderJoined_of_answers (hanswers.append hanswers'), renderJoined_of_answers hanswers',
        Outcome.bind_of_ok rfl, eventsOf_append,
        String.intercalate_append_of_ne_nil (hanswers.ne_nil hne) (hanswers'.ne_nil hne')]
      show _ = Outcome.mk _ (_ ++ (_ ++ []))
      rw [List.append_nil]
      rfl
    · rw [renderJoined_of_failure (hanswers.append_failure hfails), renderJoined_of_failure hfails,
        Outcome.bind_of_error rfl, List.append_assoc, eventsOf_append]
  · rw [renderJoined_of_failure hfails.append, renderJoined_of_failure hfails,
      Outcome.bind_of_error rfl]

end Engine

/-! ## Clients that only look -/

namespace Client

variable {α β ε ε' : Type}

/-- Whatever the replies are, none of the accesses changes a store. -/
inductive ReadsOnly : Client α → Prop
  | done (result : α) : ReadsOnly (.done result)
  | access {a : Access} {next : a.Reply → Client α} (h : ∀ s : Store, (s.access a).1 = s)
      (hnext : ∀ reply, ReadsOnly (next reply)) : ReadsOnly (.access a next)

theorem ReadsOnly.bind {c : Client α} {f : α → Client β} (h : c.ReadsOnly)
    (hf : ∀ result, (f result).ReadsOnly) : (c.bind f).ReadsOnly := by
  induction h with
  | done result => exact hf result
  | access h _ ih => exact .access h ih

theorem ReadsOnly.map {c : Client α} (h : c.ReadsOnly) (f : α → β) : (c.map f).ReadsOnly :=
  h.bind fun _ => .done _

theorem ReadsOnly.andThen {c : Client (Outcome ε α)} {f : α → Client (Outcome ε β)}
    (h : c.ReadsOnly) (hf : ∀ value, (f value).ReadsOnly) : (c.andThen f).ReadsOnly := by
  refine h.bind fun outcome => ?_
  rcases outcome with ⟨e | value, events⟩
  · exact .done _
  · exact (hf value).map _

theorem ReadsOnly.orElse {c : Client (Outcome ε α)} {f : ε → Client (Outcome ε' α)}
    (h : c.ReadsOnly) (hf : ∀ e, (f e).ReadsOnly) : (c.orElse f).ReadsOnly := by
  refine h.bind fun outcome => ?_
  rcases outcome with ⟨e | value, events⟩
  · exact (hf e).map _
  · exact .done _

variable (options : Options)

theorem readsOnly_render (name : String) (context : Context) :
    (render options name context).ReadsOnly := by
  have hrequire : (require name).ReadsOnly := .access (fun _ => rfl) fun _ => .done _
  exact (hrequire.map _).map _

theorem readsOnly_renderAll (requests : List (String × Context)) :
    (renderAll options requests).ReadsOnly := by
  induction requests with
  | nil => exact .done _
  | cons request rest ih => exact (readsOnly_render options _ _).andThen fun _ => ih.map _

theorem readsOnly_renderJoined (separator : String) (requests : List (String × Context)) :
    (renderJoined options separator requests).ReadsOnly :=
  (readsOnly_renderAll options requests).map _

theorem readsOnly_renderWithFallback (name fallback : String) (context : Context) :
    (renderWithFallback options name fallback context).ReadsOnly :=
  (readsOnly_render options name context).orElse fun _ =>
    (readsOnly_render options fallback context).map _

end Client

namespace Engine

theorem renderWithFallback_of_ok {e : Engine} {name output : String} {context : Context}
    (h : (e.render name context).result = .ok output) (fallback : String) :
    e.renderWithFallback name fallback context = e.render name context :=
  Outcome.orElse_of_ok h _

theorem renderWithFallback_of_error {e : Engine} {name : String} {context : Context}
    {error : TemplateError} (h : (e.render name context).result = .error error)
    (fallback : String) :
    e.renderWithFallback name fallback context = ⟨(e.render fallback context).result,
      (e.render name context).events ++
        .fallingBack name fallback error :: (e.render fallback context).events⟩ := by
  rw [renderWithFallback, Outcome.orElse_of_error h, Outcome.bind_of_ok rfl]
  rfl

/-- A batch and a fallback are put together from single renders. A batch succeeds exactly if its
requests do one by one, and then it has their outputs with separators between; otherwise it ends
with the first request that fails, and tells nothing of those after it. A fallback is the first
template if that can be rendered; if not, it tells why and is the second one. Neither ever changes
the store. -/
theorem composed_of_single_renders (e : Engine) :
    (∀ (separator : String) (requests : List (String × Context)),
      let batch := e.renderJoined separator requests
      let client := (Operation.renderJoined separator requests).client e.options
      (∀ output events, batch = ⟨.ok output, events⟩ ↔
        ∃ outputs, e.Answers requests outputs ∧ output = separator.intercalate outputs ∧
          events = e.eventsOf requests) ∧
      (∀ error events, batch = ⟨.error error, events⟩ ↔
        ∃ before failing, e.FailsAfter requests before failing error ∧
          events = e.eventsOf (before ++ [failing])) ∧
      (∀ requests', requests ≠ [] → requests' ≠ [] →
        e.renderJoined separator (requests ++ requests') = do
          let output ← batch
          let output' ← e.renderJoined separator requests'
          return output ++ separator ++ output') ∧
      e.renderJoined separator [] = ⟨.ok "", []⟩ ∧
      client.ReadsOnly ∧ client.run e.store = (e.store, batch)) ∧
    ∀ (name fallback : String) (context : Context),
      let first := e.render name context
      let second := e.render fallback context
      let replaced := e.renderWithFallback name fallback context
      let client := (Operation.renderWithFallback name fallback context).client e.options
      (∀ output, first.result = .ok output → replaced = first) ∧
      (∀ error, first.result = .error error →
        let notice : Event := .fallingBack name fallback error
        replaced = ⟨second.result, first.events ++ notice :: second.events⟩ ∧
          notice.level = .warn ∧
          notice.fields = [("template", .string name), ("fallback", .string fallback),
            ("error", .string error.message)]) ∧
      client.ReadsOnly ∧ client.run e.store = (e.store, replaced) := by
  refine ⟨fun separator requests => ?_, fun name fallback context => ?_⟩
  · refine ⟨fun _ _ => renderJoined_eq_ok_iff, fun _ _ => renderJoined_eq_error_iff,
      fun requests' hne hne' => renderJoined_append hne hne', rfl, ?_, ?_⟩
    · exact Client.readsOnly_renderJoined e.options separator requests
    · exact Operation.run_client e (.renderJoined separator requests)
  · refine ⟨fun output hok => renderWithFallback_of_ok hok fallback, fun error herror => ?_, ?_, ?_⟩
    · exact ⟨renderWithFallback_of_error herror fallback, rfl, rfl⟩
    · exact Client.readsOnly_renderWithFallback e.options name fallback context
    · exact Operation.run_client e (.renderWithFallback name fallback context)

/-- An empty output has its separators like any other. A strict render that fails and a name that is
not there end a batch before its last request, and a fallback for either is rendered after a
notice. -/
theorem composed_of_single_renders_strict :
    ∃ e : Engine, e.options.strict = true ∧
      e.store.source? "x" = some "X" ∧ e.store.source? "nothing" = some "" ∧
      e.store.source? "gap" = some "\x7b\x7by\x7d\x7d" ∧ e.store.source? "gone" = none ∧
      let batch (names : List String) := e.renderJoined "-" (names.map (·, ⟨[]⟩))
      let shown (name : String) := Event.rendering name true
      batch ["x", "nothing", "x"] = ⟨.ok "X--X", [shown "x", shown "nothing", shown "x"]⟩ ∧
      batch ["x", "gap", "x"] = ⟨.error (.render (.missing "y")), [shown "x", shown "gap"]⟩ ∧
      batch ["x", "gone", "x"] = ⟨.error (.notFound "gone"), [shown "x"]⟩ ∧
      batch (["x", "nothing"] ++ ["x"]) = (do
        let output ← batch ["x", "nothing"]
        let output' ← batch ["x"]
        return output ++ "-" ++ output') ∧
      e.renderWithFallback "x" "gone" ⟨[]⟩ = ⟨.ok "X", [shown "x"]⟩ ∧
      e.renderWithFallback "gap" "x" ⟨[]⟩ = ⟨.ok "X",
        [shown "gap", .fallingBack "gap" "x" (.render (.missing "y")), shown "x"]⟩ ∧
      e.renderWithFallback "gone" "gap" ⟨[]⟩ = ⟨.error (.render (.missing "y")),
        [.fallingBack "gone" "gap" (.notFound "gone"), shown "gap"]⟩ := by
  obtain ⟨e, hstrict, hsources, hx, hnothing, hgap, hgone⟩ : ∃ e : Engine,
      e.options.strict = true ∧
      (e.store.source? "x" = some "X" ∧ e.store.source? "nothing" = some "" ∧
        e.store.source? "gap" = some "\x7b\x7by\x7d\x7d" ∧ e.store.source? "gone" = none) ∧
      e.render "x" ⟨[]⟩ = ⟨.ok "X", [.rendering "x" true]⟩ ∧
      e.render "nothing" ⟨[]⟩ = ⟨.ok "", [.rendering "nothing" true]⟩ ∧
      e.render "gap" ⟨[]⟩ = ⟨.error (.render (.missing "y")), [.rendering "gap" true]⟩ ∧
      e.render "gone" ⟨[]⟩ = ⟨.error (.notFound "gone"), []⟩ := by
    let e : Engine :=
      ⟨⟨[("x", ⟨"X", [.literal "X" ⟨0, 1⟩]⟩), ("nothing", ⟨"", []⟩),
        ("gap", ⟨"\x7b\x7by\x7d\x7d", [.interpolation "y" ⟨0, 5⟩]⟩)]⟩, { strict := true }⟩
    exact ⟨e, rfl, by decide, by cbv, by cbv, by cbv, by cbv⟩
  obtain ⟨hbatch, hfallback⟩ := composed_of_single_renders e
  have hok : ∀ {name output events}, e.render name ⟨[]⟩ = ⟨.ok output, events⟩ →
      (e.answer (name, ⟨[]⟩)).result = .ok output := congrArg Outcome.result
  have hfirst : e.Answers [("x", ⟨[]⟩)] ["X"] := .cons (hok hx) .nil
  refine ⟨e, hstrict, hsources.1, hsources.2.1, hsources.2.2.1, hsources.2.2.2, ?_⟩
  refine ⟨?_, ?_, ?_, ?_, ?_, ?_, ?_⟩
  · refine ((hbatch "-" _).1 _ _).mpr ⟨["X", "", "X"], ?_, by decide, ?_⟩
    · exact .cons (hok hx) (.cons (hok hnothing) hfirst)
    · simp [eventsOf, answer, hx, hnothing]
  · refine ((hbatch "-" _).2.1 _ _).mpr ⟨[("x", ⟨[]⟩)], ("gap", ⟨[]⟩), ?_, ?_⟩
    · exact ⟨⟨_, rfl⟩, ⟨_, hfirst⟩, congrArg Outcome.result hgap⟩
    · simp [eventsOf, answer, hx, hgap]
  · refine ((hbatch "-" _).2.1 _ _).mpr ⟨[("x", ⟨[]⟩)], ("gone", ⟨[]⟩), ?_, ?_⟩
    · exact ⟨⟨_, rfl⟩, ⟨_, hfirst⟩, congrArg Outcome.result hgone⟩
    · simp [eventsOf, answer, hx, hgone]
  · exact (hbatch "-" [("x", ⟨[]⟩), ("nothing", ⟨[]⟩)]).2.2.1 [("x", ⟨[]⟩)]
      (List.cons_ne_nil _ _) (List.cons_ne_nil _ _)
  · exact ((hfallback "x" "gone" ⟨[]⟩).1 "X" (congrArg Outcome.result hx)).trans hx
  · have hreplaced := ((hfallback "gap" "x" ⟨[]⟩).2.1 _ (congrArg Outcome.result hgap)).1
    rwa [hgap, hx] at hreplaced
  · have hreplaced := ((hfallback "gone" "gap" ⟨[]⟩).2.1 _ (congrArg Outcome.result hgone)).1
    rwa [hgone, hgap] at hreplaced

end Engine

end Stencil

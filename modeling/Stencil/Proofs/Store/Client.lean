import Stencil.Engine

/-!
# Clients of a store

Several clients may use one store at a time. What takes effect at one go is an `Access`; between two
accesses of one client there may be any number of those of others. A `Client` is therefore what one
of them is going to do: a result, or an access and what it does with the reply. `Operation.client`
gives this for everything that an engine does, and `Operation.run_client` says that it gives what
the engine's own function gives when nothing comes between its accesses.
-/

namespace Stencil

/-! ## Accesses -/

/-- What takes effect on a store at one go. -/
inductive Access where
  | register (name source : String)
  | unregister (name : String)
  | contains (name : String)
  | get (name : String)
  | source (name : String)
  | names
  | size
  deriving Repr, DecidableEq

def Access.Reply : Access → Type
  | register _ _ => Outcome TemplateError Unit
  | unregister _ => Outcome TemplateError Bool
  | contains _ => Bool
  | get _ => Option Template
  | source _ => Option String
  | names => List String
  | size => Nat

/-- The store after an access, and the reply to it. -/
def Store.access (s : Store) : (access : Access) → Store × access.Reply
  | .register name source => s.register name source
  | .unregister name => s.unregister name
  | .contains name => (s, s.contains name)
  | .get name => (s, s.get? name)
  | .source name => (s, s.source? name)
  | .names => (s, s.names)
  | .size => (s, s.size)

/-! ## Clients -/

inductive Client (α : Type) where
  | done (result : α)
  | access (access : Access) (next : access.Reply → Client α)

namespace Client

variable {α β ε ε' : Type}

def bind (f : α → Client β) : Client α → Client β
  | done result => f result
  | access a next => .access a fun reply => (next reply).bind f

def map (f : α → β) (c : Client α) : Client β := c.bind fun result => done (f result)

/-- The client with the store for itself. -/
def run : Client α → Store → Store × α
  | done result, s => (s, result)
  | access a next, s => (next (s.access a).2).run (s.access a).1

theorem run_bind (f : α → Client β) (c : Client α) :
    ∀ s : Store, (c.bind f).run s = (f (c.run s).2).run (c.run s).1 := by
  induction c with
  | done result => exact fun s => rfl
  | access a next ih => exact fun s => ih (s.access a).2 (s.access a).1

/-- The client only looks at the store, and this is what it sees. -/
def Reads (c : Client α) (s : Store) (result : α) : Prop := c.run s = (s, result)

theorem Reads.bind {c : Client α} {f : α → Client β} {s : Store} {result : α} {result' : β}
    (h : c.Reads s result) (h' : (f result).Reads s result') : (c.bind f).Reads s result' := by
  rw [Reads, run_bind, h]
  exact h'

theorem Reads.map {c : Client α} {s : Store} {result : α} (h : c.Reads s result) (f : α → β) :
    (c.map f).Reads s (f result) := h.bind rfl

/-- Goes on with the value of an outcome; a failure ends the client. -/
def andThen (c : Client (Outcome ε α)) (f : α → Client (Outcome ε β)) : Client (Outcome ε β) :=
  c.bind fun outcome =>
    match outcome.result with
    | .ok value => (f value).map fun next => ⟨next.result, outcome.events ++ next.events⟩
    | .error e => done ⟨.error e, outcome.events⟩

/-- Goes on with the error of an outcome; a value ends the client. -/
def orElse (c : Client (Outcome ε α)) (f : ε → Client (Outcome ε' α)) : Client (Outcome ε' α) :=
  c.bind fun outcome =>
    match outcome.result with
    | .ok value => done ⟨.ok value, outcome.events⟩
    | .error e => (f e).map fun next => ⟨next.result, outcome.events ++ next.events⟩

theorem Reads.andThen {c : Client (Outcome ε α)} {f : α → Client (Outcome ε β)} {s : Store}
    {outcome : Outcome ε α} {g : α → Outcome ε β} (h : c.Reads s outcome)
    (h' : ∀ value, (f value).Reads s (g value)) : (c.andThen f).Reads s (outcome >>= g) := by
  refine h.bind ?_
  obtain ⟨result, events⟩ := outcome
  cases result with
  | ok value => exact (h' value).map _
  | error e => rfl

theorem Reads.orElse {c : Client (Outcome ε α)} {f : ε → Client (Outcome ε' α)} {s : Store}
    {outcome : Outcome ε α} {g : ε → Outcome ε' α} (h : c.Reads s outcome)
    (h' : ∀ e, (f e).Reads s (g e)) : (c.orElse f).Reads s (outcome.orElse g) := by
  refine h.bind ?_
  obtain ⟨result, events⟩ := outcome
  cases result with
  | ok value => rfl
  | error e => exact (h' e).map _

/-! ## What an engine does -/

/-- What is known of a name that has to be there. -/
def found (name : String) : Option α → Except TemplateError α
  | some value => .ok value
  | none => .error (.notFound name)

def require (name : String) : Client (Except TemplateError Template) :=
  .access (.get name) fun reply => done (found name reply)

def source (name : String) : Client (Except TemplateError String) :=
  .access (.source name) fun reply => done (found name reply)

section

variable (options : Options)

def report (name : String) (context : Context) : Client (Outcome TemplateError Report) :=
  (require name).map fun required => do
    let template ← Outcome.ofExcept required
    Outcome.tell (.rendering name options.strict)
    (template.render context options (some name)).mapError .render

def render (name : String) (context : Context) : Client (Outcome TemplateError String) :=
  (report options name context).map fun outcome => do return (← outcome).output

/-- Each template is looked up when its turn comes. -/
def renderAll : List (String × Context) → Client (Outcome TemplateError (List String))
  | [] => done (pure [])
  | (name, context) :: rest =>
    (render options name context).andThen fun output =>
      (renderAll rest).map fun outcome => do return output :: (← outcome)

def renderJoined (separator : String) (requests : List (String × Context)) :
    Client (Outcome TemplateError String) :=
  (renderAll options requests).map fun outcome => do return separator.intercalate (← outcome)

def renderWithFallback (name fallback : String) (context : Context) :
    Client (Outcome TemplateError String) :=
  (render options name context).orElse fun error =>
    (render options fallback context).map fun outcome => do
      Outcome.tell (.fallingBack name fallback error)
      outcome

end

end Client

/-! ## The same with the store for oneself -/

section

variable (e : Engine)

theorem Client.reads_require (name : String) :
    (Client.require name).Reads e.store (e.store.require name) := by
  have hrequire : e.store.require name = found name (e.store.get? name) := by
    rw [Store.require]
    cases e.store.get? name with
    | none => rfl
    | some t => rfl
  rw [hrequire]
  rfl

theorem Client.reads_source (name : String) :
    (Client.source name).Reads e.store (e.source name) := by
  have hsource : e.source name = found name (e.store.source? name) := by
    rw [Engine.source, Store.require, Store.source?]
    cases e.store.get? name with
    | none => rfl
    | some t => rfl
  rw [hsource]
  rfl

theorem Client.reads_report (name : String) (context : Context) :
    (Client.report e.options name context).Reads e.store (e.report name context) :=
  (Client.reads_require e name).map _

theorem Client.reads_render (name : String) (context : Context) :
    (Client.render e.options name context).Reads e.store (e.render name context) :=
  (Client.reads_report e name context).map _

theorem Client.reads_renderAll : ∀ requests : List (String × Context),
    (Client.renderAll e.options requests).Reads e.store (e.renderAll requests)
  | [] => rfl
  | (name, context) :: rest =>
      (Client.reads_render e name context).andThen fun _ => (Client.reads_renderAll rest).map _

theorem Client.reads_renderJoined (separator : String) (requests : List (String × Context)) :
    (Client.renderJoined e.options separator requests).Reads e.store
      (e.renderJoined separator requests) :=
  (Client.reads_renderAll e requests).map _

theorem Client.reads_renderWithFallback (name fallback : String) (context : Context) :
    (Client.renderWithFallback e.options name fallback context).Reads e.store
      (e.renderWithFallback name fallback context) :=
  (Client.reads_render e name context).orElse fun _ =>
    (Client.reads_render e fallback context).map _

end

/-- What can be asked of an engine: what its store does at one go, and what takes more than
that. -/
inductive Operation where
  | store (access : Access)
  | report (name : String) (context : Context)
  | render (name : String) (context : Context)
  | renderJoined (separator : String) (requests : List (String × Context))
  | renderWithFallback (name fallback : String) (context : Context)
  | validate (name : String)
  | stats (name : String)

namespace Operation

def Result : Operation → Type
  | store access => access.Reply
  | report _ _ => Outcome TemplateError Report
  | render _ _ => Outcome TemplateError String
  | renderJoined _ _ => Outcome TemplateError String
  | renderWithFallback _ _ _ => Outcome TemplateError String
  | validate _ => Except TemplateError Validation
  | stats _ => Except TemplateError Stats

/-- What an engine gives, and its store afterwards. -/
def perform (e : Engine) : (operation : Operation) → Store × operation.Result
  | store access => e.store.access access
  | report name context => (e.store, e.report name context)
  | render name context => (e.store, e.render name context)
  | renderJoined separator requests => (e.store, e.renderJoined separator requests)
  | renderWithFallback name fallback context =>
    (e.store, e.renderWithFallback name fallback context)
  | validate name => (e.store, e.validate name)
  | stats name => (e.store, e.stats name)

/-- The accesses of an operation, one after the other. -/
def client (options : Options) : (operation : Operation) → Client operation.Result
  | store access => .access access .done
  | report name context => Client.report options name context
  | render name context => Client.render options name context
  | renderJoined separator requests => Client.renderJoined options separator requests
  | renderWithFallback name fallback context =>
    Client.renderWithFallback options name fallback context
  | validate name => (Client.source name).map (Except.map Validation.ofSource)
  | stats name => (Client.source name).map (Except.map Stats.ofSource)

/-- An operation with the store for itself does what the engine does. -/
theorem run_client (e : Engine) (operation : Operation) :
    (operation.client e.options).run e.store = operation.perform e := by
  cases operation with
  | store access => rfl
  | report name context => exact Client.reads_report e name context
  | render name context => exact Client.reads_render e name context
  | renderJoined separator requests => exact Client.reads_renderJoined e separator requests
  | renderWithFallback name fallback context =>
      exact Client.reads_renderWithFallback e name fallback context
  | validate name => exact (Client.reads_source e name).map _
  | stats name => exact (Client.reads_source e name).map _

end Operation

end Stencil

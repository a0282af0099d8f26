import ContainerJobs.Proofs.Engine.Effect

/-!
# Engines in memory seen from outside

What can be done to an engine in memory besides putting commands to it: its
*controls*. However an engine came about (`IsBuilt`), its ids are made from
ascending numbers (`IsBuilt.numbered`).
-/

namespace ContainerJobs.InMemory

/-- What is done to an engine from outside. -/
inductive Control where
  /-- The container of an address, if there is one, gets another state. -/
  | setState (address : String) (state : ContainerState)
  /-- The container of an address, if there is one, gets another output. -/
  | setLogs (address logs : String)
  /-- The state of the container of an address, if there is one, cannot be read
      any more. -/
  | setGarbled (address : String)
  /-- Launches are refused from now on, or taken again. -/
  | setRefusal (refuses : Bool)
  /-- The engine goes down or comes up. -/
  | setDown (down : Bool)
  /-- A container that belongs to no job is added. -/
  | addUnmanaged (name : String)

namespace Control

/-- The engine after a control. -/
def apply (e : InMemory) : Control → InMemory
  | setState address state => (e.modify? address fun c => { c with state }).getD e
  | setLogs address logs => (e.modify? address fun c => { c with logs }).getD e
  | setGarbled address => (e.modify? address fun c => { c with garbled := true }).getD e
  | setRefusal refuses => { e with refusesLaunch := refuses }
  | setDown down => { e with isDown := down }
  | addUnmanaged name => { e with store := e.store.addUnmanaged name }

/-- A container that is added has a name, and one that no container has. -/
def IsFresh (e : InMemory) : Control → Prop
  | addUnmanaged name => name ≠ "" ∧ ∀ c ∈ e.store.containers, c.name ≠ name
  | _ => True

/-- A control adds a container that belongs to no job, or leaves all names, ids and
    labels as they are. -/
theorem apply_store (e : InMemory) (v : Control) : (v.apply e).store.Remains e.store ∨
    ∃ name, v = addUnmanaged name ∧ (v.apply e).store = e.store.addUnmanaged name := by
  have modify (address : String) {f : Container → Container}
      (hf : ∀ c, (f c).identity = c.identity) :
      ((e.modify? address f).getD e).store.Remains e.store := by
    rw [getD_modify?]
    exact ContainerStore.remains_modify e.store address hf
  cases v with
  | setState address state => exact .inl (modify address fun _ => rfl)
  | setLogs address logs => exact .inl (modify address fun _ => rfl)
  | setGarbled address => exact .inl (modify address fun _ => rfl)
  | setRefusal refuses => exact .inl (.refl _)
  | setDown down => exact .inl (.refl _)
  | addUnmanaged name => exact .inr ⟨name, rfl, rfl⟩

end Control

/-- The engine came about from one without containers. -/
inductive IsBuilt : InMemory → Prop where
  | empty : IsBuilt {}
  /-- By a command of any kind. -/
  | command {e : InMemory} (args : Command) : IsBuilt e → IsBuilt (engine args e).2
  /-- By a control. -/
  | control {e : InMemory} (v : Control) : IsBuilt e → IsBuilt (v.apply e)
  /-- By a container that an earlier launch might have left. -/
  | addJob {e : InMemory} (name : String) (key : JobKey) (state : ContainerState) : IsBuilt e →
    IsBuilt { e with store := e.store.addJob name key state }
  /-- By the loss of ids as they were given. -/
  | stripIds {e : InMemory} (address : String) : IsBuilt e →
    IsBuilt ((e.modify? address Container.withoutRawIds).getD e)

theorem IsBuilt.numbered {e : InMemory} (h : e.IsBuilt) : e.store.Numbered := by
  induction h with
  | empty => exact ContainerStore.numbered_empty
  | @command e args _ ih =>
    have effect := engine_effect args e
    generalize (engine args e).2 = e' at effect
    cases effect with
    | remains part => exact ih.of_isPart part.isPart
    | launched => exact ih.add fun _ => rfl
  | @control e v _ ih =>
    obtain part | ⟨name, -, added⟩ := v.apply_store e
    · exact ih.of_isPart part.isPart
    · exact added ▸ ih.add fun _ => rfl
  | addJob name key state _ ih => exact ih.add fun _ => rfl
  | stripIds address _ ih =>
    rw [getD_modify?]
    exact ih.of_isPart (ContainerStore.isPart_modify _ address fun _ => rfl)

end ContainerJobs.InMemory

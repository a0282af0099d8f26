import ContainerJobs.Proofs.Engine.InMemory

/-!
# Effects of commands

What a command does to an engine in memory, whatever the command is and whether or
not the engine is up and takes launches (`engine_effect`): some containers may go,
others may change their states, and a launch may add one under a name that nothing
answers to. No command changes a name, an id or a label. An engine that is down does
nothing at all (`engine_of_isDown`).

A command is about some ids: those of the containers that it is to stop or to remove
(`Targets`), and those of the containers that it makes (`Makes`).
-/

namespace ContainerJobs

/-- What no command changes about a container. -/
def Container.identity (c : Container) : String × String × List (String × String) :=
  (c.id, c.name, c.labels)

namespace ContainerStore

variable {s t u : ContainerStore}

/-- The store `t` has some of the containers of `s`, perhaps in other states. -/
structure Remains (t s : ContainerStore) : Prop where
  /-- The names, ids and labels are some of the others. -/
  identities : (t.containers.map (·.identity)).Sublist (s.containers.map (·.identity))
  /-- No id was given. -/
  last : t.lastNumber = s.lastNumber

theorem Remains.refl (s : ContainerStore) : s.Remains s := ⟨.refl _, rfl⟩

theorem Remains.trans (h : t.Remains s) (h' : s.Remains u) : t.Remains u :=
  ⟨h.identities.trans h'.identities, h.last.trans h'.last⟩

theorem remains_erase (s : ContainerStore) (address : String) : (s.erase address).Remains s where
  identities := List.eraseP_sublist.map _
  last := rfl

theorem remains_modify (s : ContainerStore) (address : String) {f : Container → Container}
    (hf : ∀ c, (f c).identity = c.identity) : (s.modify address f).Remains s where
  identities := by rw [modify, map_modifyFirst hf]
  last := rfl

theorem Remains.isPart (h : t.Remains s) : t.IsPart s where
  addresses := by
    simpa [Function.comp_def, Container.identity] using
      h.identities.map fun x : String × String × List (String × String) => (x.1, x.2.1)
  last := h.last

theorem Remains.exists_mem (h : t.Remains s) {c : Container} (hc : c ∈ t.containers) :
    ∃ d ∈ s.containers, d.identity = c.identity :=
  List.mem_map.1 (h.identities.subset (List.mem_map_of_mem hc))

end ContainerStore

namespace InMemory

theorem remains_forEach {f : ContainerStore → String → ContainerStore}
    (hf : ∀ s a, (f s a).Remains s) (s : ContainerStore) (addresses : List String) :
    (forEach f s addresses).2.Remains s := by
  induction addresses generalizing s with
  | nil => exact .refl s
  | cons a addresses ih =>
    rw [forEach]
    split
    · exact (ih (f s a)).trans (hf s a)
    · exact ih s

/-- What a command may make of an engine. -/
inductive Effect (args : Command) (e : InMemory) : InMemory → Prop where
  /-- Containers went or changed, or nothing happened. -/
  | remains {t : ContainerStore} (h : t.Remains e.store) : Effect args e { e with store := t }
  /-- A container was launched under a name that nothing answered to. -/
  | launched {name : String} {names : List String} (run : args.head? = some "run")
      (named : optionValues "--name" args = name :: names) (free : e.store.find? name = none) :
      Effect args e { e with store := e.store.add (launched args name) }

theorem effect_launch (e : InMemory) (rest : Command) :
    Effect ("run" :: rest) e { e with store := (launch e.store ("run" :: rest)).2 } := by
  rw [launch]
  split
  · exact .remains (.refl _)
  · next name names named =>
    split
    · exact .remains (.refl _)
    · next free => exact .launched rfl named (by simpa using free)

/-- Every command has one of these effects. -/
theorem engine_effect (args : Command) (e : InMemory) : Effect args e (engine args e).2 := by
  have nothing : Effect args e e := .remains (.refl e.store)
  change Effect args e (e.reply args).2
  unfold reply
  split
  · exact nothing
  · -- Only a launch, a stop and a removal do anything.
    split
    case h_2 rest =>
      split
      · exact nothing
      · exact effect_launch e rest
    case h_4 addresses =>
      exact .remains (remains_forEach (f := fun s a => s.modify a stopped)
        (fun s a => ContainerStore.remains_modify s a fun _ => rfl) _ addresses)
    case h_5 addresses =>
      exact .remains (remains_forEach ContainerStore.remains_erase _ _)
    all_goals exact nothing

theorem engine_of_isDown {e : InMemory} (h : e.isDown = true) (args : Command) :
    engine args e = (.ok down, e) := by
  simp [engine, reply, h]

/-! ## Refused launches -/

/-- Whether launches are refused makes a difference to launches only. -/
theorem engine_refusesLaunch {args : Command} (h : args.head? ≠ some "run") (refuses : Bool)
    (e : InMemory) : engine args { e with refusesLaunch := refuses } =
      ((engine args e).1, { (engine args e).2 with refusesLaunch := refuses }) := by
  obtain ⟨store, refusesLaunch, isDown⟩ := e
  cases isDown with
  | true => rfl
  | false =>
    simp only [engine, reply, Bool.false_eq_true, if_false]
    split
    · rfl
    · exact absurd rfl h
    all_goals rfl

/-- Nor does it make one to a dialogue that launches nothing. -/
theorem run_refusesLaunch {α : Type} {d : Dialogue α} (h : d.Asks (·.head? ≠ some "run"))
    (refuses : Bool) (e : InMemory) (lock : StartLock) :
    d.run engine { e with refusesLaunch := refuses } lock =
      { d.run engine e lock with
        engine := { (d.run engine e lock).engine with refusesLaunch := refuses } } :=
  h.run_map (g := fun e => { e with refusesLaunch := refuses })
    (fun _ e hc => engine_refusesLaunch hc refuses e) e lock

theorem engine_inspectState_of_isUp {e : InMemory} (up : e.isDown = false) (name : String) :
    ∃ reply, engine (.inspectState name) e = (.ok reply, e) ∧
      Presence.ofReply reply = e.store.presence name := by
  obtain ⟨store, refusesLaunch, isDown⟩ := e
  subst up
  refine ⟨_, ?_, ofReply_inspectState store name⟩
  have launchesNothing : (Command.inspectState name).head? ≠ some "run" := by
    simp [Command.inspectState]
  have same := engine_refusesLaunch launchesNothing refusesLaunch { store }
  rwa [engine_inspectState] at same

/-- On an engine that is up, a removal leaves all but the container of the name. -/
theorem removeContainer_run_of_isUp {e : InMemory} (up : e.isDown = false) {name : String}
    (lock : StartLock) (h : name.toList.head? ≠ some '-') :
    ((Dialogue.removeContainer name).run engine e lock).value = true ∧
      ((Dialogue.removeContainer name).run engine e lock).engine =
        { e with store := e.store.erase name } := by
  obtain ⟨store, refusesLaunch, isDown⟩ := e
  subst up
  obtain ⟨value, engine⟩ := removeContainer_run store lock h
  have same := run_refusesLaunch (d := Dialogue.removeContainer name)
    (Dialogue.asks_removeContainer_of (by simp) (by simp)) refusesLaunch { store } lock
  rw [engine] at same
  exact ⟨(congrArg Outcome.value same).trans value, congrArg Outcome.engine same⟩

/-! ## Ids that commands are about -/

/-- The command makes a container of this id. -/
def Makes (args : Command) (e : InMemory) (id : String) : Prop :=
  id ∈ (engine args e).2.store.containers.map (·.id) ∧ id ∉ e.store.containers.map (·.id)

/-- The addresses of the containers that a command is to stop or to remove. -/
def targets : Command → List String
  | "stop" :: addresses => addresses
  | "rm" :: args => args.filter fun a => a.toList.head? != some '-'
  | _ => []

/-- The command is to stop or to remove the container of this id. -/
def Targets (args : Command) (e : InMemory) (id : String) : Prop :=
  ∃ address ∈ targets args, ∃ c, e.store.find? address = some c ∧ c.id = id

variable {args : Command} {e : InMemory} {id : String}

theorem not_makes_of_remains (h : (engine args e).2.store.Remains e.store) : ¬ Makes args e id :=
  fun made => made.2 (h.isPart.ids.subset made.1)

theorem Makes.eq (h : Makes args e id) :
    id = ContainerStore.idOf (e.store.lastNumber + 1) := by
  have effect := engine_effect args e
  obtain ⟨after, before⟩ := h
  generalize (engine args e).2 = e' at effect after
  cases effect with
  | remains part => exact absurd (part.isPart.ids.subset after) before
  | launched run named free =>
    simp only [ContainerStore.add, List.map_append, List.map_singleton, List.mem_append,
      List.mem_singleton] at after
    exact after.resolve_left before

theorem Targets.exists_mem (h : Targets args e id) : ∃ c ∈ e.store.containers, c.id = id := by
  obtain ⟨address, -, c, found, hid⟩ := h
  exact ⟨c, List.mem_of_find?_eq_some found, hid⟩

/-! ## Commands on one container -/

variable {name : String} {c : Container}

theorem ofReply_down : Presence.ofReply down = .unavailable := by decide +kernel

/-- An inspection tells what is there, unless the engine is down. -/
theorem engine_inspectState_cases (e : InMemory) (name : String) :
    ∃ reply, engine (.inspectState name) e = (.ok reply, e) ∧
      (Presence.ofReply reply = .unavailable ∨
        Presence.ofReply reply = e.store.presence name) := by
  cases h : e.isDown with
  | true => exact ⟨down, engine_of_isDown h _, .inl ofReply_down⟩
  | false =>
    obtain ⟨reply, answer, tells⟩ := engine_inspectState_of_isUp h name
    exact ⟨reply, answer, .inr tells⟩

theorem engine_stop_store (e : InMemory) (name : String) :
    (engine ["stop", name] e).2.store = e.store ∨
      (engine ["stop", name] e).2.store = e.store.modify name stopped := by
  obtain ⟨store, refusesLaunch, isDown⟩ := e
  cases isDown with
  | true => exact .inl rfl
  | false =>
    have after : (engine ["stop", name] ⟨store, refusesLaunch, false⟩).2.store =
        (forEach (fun s a => s.modify a stopped) store [name]).2 := rfl
    rw [after, forEach_singleton]
    split
    · exact .inr rfl
    · exact .inl rfl

theorem targets_rm (noOption : name.toList.head? ≠ some '-') :
    targets ["rm", "-f", name] = [name] := by
  rw [targets, List.filter_cons_of_neg (by decide), List.filter_cons_of_pos (by simpa using noOption),
    List.filter_nil]

theorem engine_rm_store (e : InMemory) (noOption : name.toList.head? ≠ some '-') :
    (engine ["rm", "-f", name] e).2.store = e.store ∨
      (engine ["rm", "-f", name] e).2.store = e.store.erase name := by
  obtain ⟨store, refusesLaunch, isDown⟩ := e
  cases isDown with
  | true => exact .inl rfl
  | false =>
    have after : (engine ["rm", "-f", name] ⟨store, refusesLaunch, false⟩).2.store =
        (forEach ContainerStore.erase store (targets ["rm", "-f", name])).2 := rfl
    rw [after, targets_rm noOption, forEach_singleton]
    split
    · exact .inr rfl
    · exact .inl rfl

theorem remains_engine_stop (e : InMemory) (name : String) :
    (engine ["stop", name] e).2.store.Remains e.store := by
  obtain same | changed := engine_stop_store e name
  · exact same ▸ .refl _
  · exact changed ▸ ContainerStore.remains_modify e.store name fun _ => rfl

theorem remains_engine_rm (e : InMemory) (noOption : name.toList.head? ≠ some '-') :
    (engine ["rm", "-f", name] e).2.store.Remains e.store := by
  obtain same | changed := engine_rm_store e noOption
  · exact same ▸ .refl _
  · exact changed ▸ ContainerStore.remains_erase e.store name

/-- What is stopped by its name is no container of another name. -/
theorem mem_engine_stop (h : e.store.NamesDistinct) (hyphen : '-' ∈ name.toList)
    (hc : c ∈ e.store.containers) (other : c.name ≠ name) :
    c ∈ (engine ["stop", name] e).2.store.containers := by
  obtain same | changed := engine_stop_store e name
  · exact same ▸ hc
  · rw [changed, h.modify_name hyphen]
    exact List.mem_map.2 ⟨c, hc, if_neg other⟩

/-- What is removed by its name is no container of another name. -/
theorem mem_engine_rm (h : e.store.NamesDistinct) (hyphen : '-' ∈ name.toList)
    (noOption : name.toList.head? ≠ some '-') (hc : c ∈ e.store.containers)
    (other : c.name ≠ name) : c ∈ (engine ["rm", "-f", name] e).2.store.containers := by
  obtain same | changed := engine_rm_store e noOption
  · exact same ▸ hc
  · rw [changed, h.erase_name hyphen]
    exact List.mem_filter.2 ⟨hc, by simpa using other⟩

end InMemory

end ContainerJobs

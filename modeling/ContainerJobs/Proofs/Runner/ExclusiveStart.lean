import ContainerJobs.Proofs.Container.State
import ContainerJobs.Proofs.Engine.Control
import ContainerJobs.Proofs.Engine.Interleaving
import ContainerJobs.Proofs.Engine.Starting

/-!
# Starts under an exclusive lock

Any number of starts, by any runners, share one engine in memory and one exclusive
start lock, and take their steps in any order. What they keep of each other
(`ExclusiveStarts`) is that a name is held by one start at a time, and that a
container which one of them made stays as it is: a start stops or removes the
container of its name only after it saw it, while it holds the name, and a container
that was just made does not look removable (`Exclusive.inspect`).

The invariant (`Exclusive`) ties how far each start has got (`StartCall.Point`) to
the lock and to what was made under its name. Each step keeps it
(`Exclusive.step`), so every schedule does.
-/

namespace ContainerJobs

/-- One start of a job by one runner. -/
structure StartCall where
  /-- The runner. -/
  runner : Runner
  /-- What is asked for. -/
  request : StartRequest

namespace StartCall

/-- The name of the container. -/
def name (c : StartCall) : String := c.runner.resourceName c.request.key

/-- What the start does. -/
def dialogue (c : StartCall) : Dialogue (Except JobError Bool) := c.runner.start c.request

/-- The guard that an exclusive lock grants to the start. -/
def guard (c : StartCall) : Guard where
  name := c.name
  held := true

/-- The end of the start after `d`. -/
def leave (c : StartCall) (d : Dialogue (Except JobError Bool)) :
    Dialogue (Except JobError Bool) := do
  let result ← d
  .release c.guard (return result)

/-- The launch after a removal by `d`, if the container is gone. -/
def replace (c : StartCall) (d : Dialogue Bool) : Dialogue (Except JobError Bool) :=
  c.leave do if ← d then c.runner.launch c.request else return .ok false

/-- The second command of a removal. -/
def forceRemoval (name : String) : Dialogue Bool := do
  match ← Dialogue.command ["rm", "-f", name] with
  | .error _ => return false
  | .ok r => return r.isSuccess || r.isNotFound

/-- What the start does about what is in its way. -/
def proceed (c : StartCall) : Hindrance → Dialogue (Except JobError Bool)
  | .nothing => c.runner.launch c.request
  | .lasting => return .ok false
  | .removable => do
    if ← Dialogue.removeContainer c.name then c.runner.launch c.request else return .ok false

/-- How far a start has got: what is left of it, and its guards. A start that is about
    to stop or to remove a container was not told of one that a start made
    (`unmade`), and one that succeeded made one (`made`). -/
inductive Point (c : StartCall) (unmade made : Prop) :
    Dialogue (Except JobError Bool) → List Guard → Prop where
  | waiting : Point c unmade made c.dialogue []
  | inspecting : Point c unmade made (c.leave (c.runner.startUnlocked c.request)) [c.guard]
  | stopping (h : unmade) :
    Point c unmade made (c.replace (Dialogue.removeContainer c.name)) [c.guard]
  | removing (h : unmade) : Point c unmade made (c.replace (forceRemoval c.name)) [c.guard]
  | launching {p : LaunchPlan} (h : c.runner.plan c.request = .ok p) :
    Point c unmade made (c.leave (c.runner.launch c.request)) [c.guard]
  | leaving {v : Except JobError Bool} (h : v = .ok true → made) :
    Point c unmade made (.release c.guard (.done v)) [c.guard]
  | ended {v : Except JobError Bool} (h : v = .ok true → made) : Point c unmade made (.done v) []

variable {c : StartCall} {unmade unmade' made made' : Prop}
  {d : Dialogue (Except JobError Bool)} {held : List Guard}

theorem Point.imp (h : c.Point unmade made d held) (hu : held ≠ [] → unmade → unmade')
    (hm : made → made') : c.Point unmade' made' d held := by
  cases h with
  | waiting => exact .waiting
  | inspecting => exact .inspecting
  | stopping h => exact .stopping (hu (List.cons_ne_nil _ _) h)
  | removing h => exact .removing (hu (List.cons_ne_nil _ _) h)
  | launching h => exact .launching h
  | leaving h => exact .leaving fun hv => hm (h hv)
  | ended h => exact .ended fun hv => hm (h hv)

theorem Point.eq_guard (h : c.Point unmade made d held) : ∀ g ∈ held, g = c.guard := by
  cases h <;> simp

/-- A start that is over and succeeded made a container. -/
theorem Point.made_of_success (h : c.Point unmade made d held) (hd : d = .done (.ok true)) :
    made := by
  cases h with
  | ended made =>
    cases hd
    exact made rfl
  | launching plan =>
    rw [Runner.launch, plan] at hd
    cases hd
  | _ => cases hd

/-- A launch is next, unless there is no plan for it. -/
theorem point_launch : c.Point unmade made (c.leave (c.runner.launch c.request)) [c.guard] := by
  cases h : c.runner.plan c.request with
  | ok p => exact .launching h
  | error err =>
    rw [Runner.launch, h]
    exact .leaving (by simp)

theorem hyphen_mem_name (c : StartCall) : '-' ∈ c.name.toList :=
  c.request.key.hyphen_mem_resourceName _

theorem head?_name_ne_hyphen (c : StartCall) : c.name.toList.head? ≠ some '-' :=
  c.request.key.head?_resourceName_ne_hyphen _

end StartCall

/-- The container is as a launch leaves it. -/
structure Container.IsNew (c : Container) (name : String) : Prop where
  /-- It has the name that was asked for. -/
  name : c.name = name
  /-- It was started. -/
  state : c.state = .started
  /-- Its state can be read. -/
  readable : c.garbled = false

/-- A new container is in the way of every other one of its name. -/
theorem Container.IsNew.hindrance {c : Container} {name : String} (h : c.IsNew name) :
    c.presence.hindrance = .lasting := by
  rw [Container.presence_eq_found (h.state ▸ ContainerState.isPlain_started) h.readable, h.state]
  decide

/-- Starts that share an engine in memory. -/
abbrev Starts (ι : Type) := Interleaving ι InMemory (Except JobError Bool)

/-- A command made a container of this id. -/
def Request.Makes {ι : Type} (x : Request ι InMemory) (id : String) : Prop :=
  InMemory.Makes x.command x.before id

/-- A command was to stop or to remove the container of this id. -/
def Request.Targets {ι : Type} (x : Request ι InMemory) (id : String) : Prop :=
  InMemory.Targets x.command x.before id

namespace Starts

variable {ι : Type} (calls : ι → StartCall)

/-! ## What was made -/

/-- What the log of the starts says about the containers that they made, and about
    those that are there. -/
structure Kept (log : List (Request ι InMemory)) (t : ContainerStore) : Prop where
  /-- No two containers have the same name. -/
  names : t.NamesDistinct
  /-- What was made is still there, as it was made. -/
  made : ∀ x ∈ log, ∀ id, x.Makes id →
    ∃ c ∈ t.containers, c.id = id ∧ c.IsNew (calls x.caller).name
  /-- No id was made twice. -/
  once : ∀ x ∈ log, ∀ y ∈ log, ∀ id, x.Makes id → y.Makes id → x.caller = y.caller
  /-- What was stopped or removed has an id that was given. -/
  past : ∀ y ∈ log, ∀ id, y.Targets id → ∃ n ≤ t.lastNumber, id = ContainerStore.idOf n
  /-- What was made was never stopped or removed. -/
  spared : ∀ x ∈ log, ∀ y ∈ log, ∀ id, x.Makes id → ¬ y.Targets id

/-- No container of this name was made. -/
def Unmade (log : List (Request ι InMemory)) (name : String) : Prop :=
  ∀ x ∈ log, ∀ id, x.Makes id → (calls x.caller).name ≠ name

/-- The start `i` made a container. -/
def Made (log : List (Request ι InMemory)) (i : ι) : Prop :=
  ∃ x ∈ log, x.caller = i ∧ ∃ id, x.Makes id

variable {calls} {log : List (Request ι InMemory)} {e : InMemory} {x : Request ι InMemory}
  {i : ι} {name : String}

theorem Made.append (h : Made log i) : Made (log ++ [x]) i := by
  obtain ⟨y, hy, rest⟩ := h
  exact ⟨y, List.mem_append_left _ hy, rest⟩

theorem made_append_self {id : String} (h : x.Makes id) : Made (log ++ [x]) x.caller :=
  ⟨x, List.mem_append_right _ (List.mem_singleton_self x), rfl, id, h⟩

theorem Unmade.append (h : Unmade calls log name)
    (hx : ∀ id, x.Makes id → (calls x.caller).name ≠ name) : Unmade calls (log ++ [x]) name := by
  intro y hy
  rcases List.mem_append.1 hy with hy | hy
  · exact h y hy
  · exact List.mem_singleton.1 hy ▸ hx

/-- What was made under other names has other names. -/
theorem Kept.name_ne {t : ContainerStore} (h : Kept calls log t) (unmade : Unmade calls log name)
    {c : Container} (hc : c ∈ t.containers) (hx : x ∈ log) (hid : x.Makes c.id) :
    c.name ≠ name := by
  obtain ⟨d, hd, same, new⟩ := h.made x hx c.id hid
  have ids := h.names.numbered.nodup_ids
  obtain rfl := List.inj_on_of_nodup_map ids hd hc same
  exact new.name ▸ unmade x hx d.id hid

/-- One more command keeps this if it spares what was made, and makes at most a new
    container under the name of its caller. -/
theorem Kept.append {command : Command} (h : Kept calls log e.store)
    (names : (InMemory.engine command e).2.store.NamesDistinct)
    (last : e.store.lastNumber ≤ (InMemory.engine command e).2.store.lastNumber)
    (stays : ∀ x ∈ log, ∀ c ∈ e.store.containers, x.Makes c.id →
      c ∈ (InMemory.engine command e).2.store.containers)
    (new : ∀ id, InMemory.Makes command e id →
      ∃ c ∈ (InMemory.engine command e).2.store.containers, c.id = id ∧ c.IsNew (calls i).name)
    (spares : ∀ x ∈ log, ∀ id, x.Makes id → ¬ InMemory.Targets command e id) :
    Kept calls (log ++ [{ caller := i, command, before := e }])
      (InMemory.engine command e).2.store := by
  -- An id that is made now was not there before, so nothing in the log is about it.
  have unmade {id : String} (makes : InMemory.Makes command e id) : ∀ x ∈ log, ¬ x.Makes id := by
    intro x hx made
    obtain ⟨c, hc, rfl, -⟩ := h.made x hx id made
    exact makes.2 (List.mem_map_of_mem hc)
  have untouched {id : String} (makes : InMemory.Makes command e id) :
      ∀ y ∈ log, ¬ y.Targets id := by
    intro y hy targets
    obtain ⟨n, hn, rfl⟩ := h.past y hy id targets
    have := ContainerStore.idOf_injective makes.eq
    omega
  refine ⟨names, ?_, ?_, ?_, ?_⟩
  · intro x hx id makes
    rcases List.mem_append.1 hx with hx | hx
    · obtain ⟨c, hc, rfl, isNew⟩ := h.made x hx id makes
      exact ⟨c, stays x hx c hc makes, rfl, isNew⟩
    · obtain rfl := List.mem_singleton.1 hx
      exact new id makes
  · intro x hx y hy id hxid hyid
    rcases List.mem_append.1 hx with hx | hx <;> rcases List.mem_append.1 hy with hy | hy
    · exact h.once x hx y hy id hxid hyid
    · obtain rfl := List.mem_singleton.1 hy
      exact absurd hxid (unmade hyid x hx)
    · obtain rfl := List.mem_singleton.1 hx
      exact absurd hyid (unmade hxid y hy)
    · rw [List.mem_singleton.1 hx, List.mem_singleton.1 hy]
  · intro y hy id targets
    rcases List.mem_append.1 hy with hy | hy
    · obtain ⟨n, hn, rfl⟩ := h.past y hy id targets
      exact ⟨n, hn.trans last, rfl⟩
    · obtain rfl := List.mem_singleton.1 hy
      obtain ⟨c, hc, rfl⟩ := InMemory.Targets.exists_mem targets
      obtain ⟨n, hn, hid⟩ := h.names.numbered.exists_number hc
      exact ⟨n, hn.trans last, hid⟩
  · intro x hx y hy id makes targets
    rcases List.mem_append.1 hx with hx | hx <;> rcases List.mem_append.1 hy with hy | hy
    · exact h.spared x hx y hy id makes targets
    · obtain rfl := List.mem_singleton.1 hy
      exact spares x hx id makes targets
    · obtain rfl := List.mem_singleton.1 hx
      exact untouched makes y hy targets
    · obtain rfl := List.mem_singleton.1 hx
      obtain rfl := List.mem_singleton.1 hy
      obtain ⟨c, hc, rfl⟩ := InMemory.Targets.exists_mem targets
      exact makes.2 (List.mem_map_of_mem hc)

/-- A stop or a removal under a name keeps this if nothing was made under it. -/
theorem Kept.append_removal {command : Command} (h : Kept calls log e.store)
    (unmade : Unmade calls log name) (hyphen : '-' ∈ name.toList)
    (targets : InMemory.targets command = [name])
    (remains : (InMemory.engine command e).2.store.Remains e.store)
    (stays : ∀ c ∈ e.store.containers, c.name ≠ name →
      c ∈ (InMemory.engine command e).2.store.containers) :
    Kept calls (log ++ [{ caller := i, command, before := e }])
      (InMemory.engine command e).2.store := by
  refine h.append (h.names.of_isPart remains.isPart) remains.last.ge ?_ ?_ ?_
  · exact fun x hx c hc made => stays c hc (h.name_ne unmade hc hx made)
  · exact fun id makes => absurd makes (InMemory.not_makes_of_remains remains)
  · rintro x hx id made ⟨address, ha, c, found, rfl⟩
    rw [targets, List.mem_singleton] at ha
    subst ha
    have hc := List.mem_of_find?_eq_some found
    -- The only address is the name, and what was made has another one.
    refine h.name_ne unmade hc hx made ?_
    have answers := List.find?_some found
    rw [ContainerStore.answersTo_of_hyphen (h.names.numbered.hyphen_not_mem hc) hyphen] at answers
    simpa using answers

/-- A command that does nothing keeps this. -/
theorem Kept.append_idle {command : Command} (h : Kept calls log e.store)
    (same : (InMemory.engine command e).2 = e) (targets : InMemory.targets command = []) :
    Kept calls (log ++ [{ caller := i, command, before := e }])
      (InMemory.engine command e).2.store := by
  have remains : (InMemory.engine command e).2.store.Remains e.store := by
    rw [same]
    exact .refl _
  refine h.append (h.names.of_isPart remains.isPart) remains.last.ge ?_ ?_ ?_
  · exact fun x _ c hc _ => same.symm ▸ hc
  · exact fun id makes => absurd makes (InMemory.not_makes_of_remains remains)
  · rintro x _ id _ ⟨address, ha, -⟩
    rw [targets] at ha
    exact absurd ha List.not_mem_nil

/-- A launch keeps this: it does nothing, or makes a new container. -/
theorem Kept.append_launch (h : Kept calls log e.store) (task : TaskInstance) {args : Command}
    (hargs : args = "run" :: (calls i).runner.launchArgs (calls i).request task) :
    ∃ reply, (InMemory.engine args e).1 = .ok reply ∧
      Kept calls (log ++ [{ caller := i, command := args, before := e }])
        (InMemory.engine args e).2.store ∧
      (reply.isSuccess = true → ∃ id, InMemory.Makes args e id) := by
  subst hargs
  have targets : InMemory.targets
      ("run" :: (calls i).runner.launchArgs (calls i).request task) = [] := rfl
  obtain ⟨reply, answer, ⟨fails, same⟩ | ⟨-, free, added⟩⟩ := InMemory.engine_launchArgs_cases e
    (calls i).runner (calls i).request task
  · exact ⟨reply, answer, h.append_idle same targets, fun success => by simp [fails] at success⟩
  · set id := ContainerStore.idOf (e.store.lastNumber + 1) with hid
    have there : (calls i).runner.container (calls i).request task id ∈
        (e.store.add ((calls i).runner.container (calls i).request task)).containers :=
      List.mem_append_right _ (List.mem_singleton_self _)
    have unused : id ∉ e.store.containers.map (·.id) := by
      intro used
      obtain ⟨c, hc, heq⟩ := List.mem_map.1 used
      obtain ⟨n, hn, hcn⟩ := h.names.numbered.exists_number hc
      have := ContainerStore.idOf_injective (hid.symm.trans (heq.symm.trans hcn))
      omega
    have makes : InMemory.Makes
        ("run" :: (calls i).runner.launchArgs (calls i).request task) e id := by
      refine ⟨?_, unused⟩
      rw [added]
      exact List.mem_map_of_mem there
    refine ⟨reply, answer, h.append ?_ ?_ ?_ ?_ ?_, fun _ => ⟨id, makes⟩⟩
    · rw [added]
      exact h.names.add (fun _ => ⟨rfl, rfl⟩) fun c hc =>
        ContainerStore.name_ne_of_find?_eq_none free hc
    · rw [added]
      exact Nat.le_succ _
    · intro x _ c hc _
      rw [added]
      exact List.mem_append_left _ hc
    · intro id' makes'
      obtain rfl := makes'.eq
      rw [added]
      exact ⟨_, there, rfl, rfl, rfl, rfl⟩
    · rintro x _ id' _ ⟨address, ha, -⟩
      rw [targets] at ha
      exact absurd ha List.not_mem_nil

/-! ## The invariant -/

variable (calls) in
/-- What holds between any two steps of the starts. -/
structure Exclusive (s : Starts ι) : Prop where
  /-- What was made is kept. -/
  kept : Kept calls s.log s.engine.store
  /-- The lock knows the names that are held. -/
  locked : ∃ taken, s.lock = .exclusive taken ∧ ∀ i, s.held i ≠ [] → (calls i).name ∈ taken
  /-- A name is held by one start at a time. -/
  single : ∀ i j, s.held i ≠ [] → s.held j ≠ [] → (calls i).name = (calls j).name → i = j
  /-- How far each start has got. -/
  points : ∀ i, (calls i).Point (Unmade calls s.log (calls i).name) (Made s.log i)
    (s.rest i) (s.held i)

variable [DecidableEq ι] {s : Starts ι}

/-- The others are where they were when the start `i` gets further. -/
theorem Exclusive.points_update (h : Exclusive calls s) {d : Dialogue (Except JobError Bool)}
    {held : List Guard}
    (point : (calls i).Point (Unmade calls s.log (calls i).name) (Made s.log i) d held) (j : ι) :
    (calls j).Point (Unmade calls s.log (calls j).name) (Made s.log j)
      (Function.update s.rest i d j) (Function.update s.held i held j) := by
  by_cases hj : j = i
  · subst hj
    simpa only [Function.update_self] using point
  · simpa only [Function.update_of_ne hj] using h.points j

/-- A step at which a start that holds its name puts a command to the engine. -/
theorem Exclusive.ask (h : Exclusive calls s) (command : Command)
    {next : Answer → Dialogue (Except JobError Bool)} (rest : s.rest i = .ask command next)
    (holds : s.held i ≠ [])
    (kept : Kept calls (s.log ++ [{ caller := i, command, before := s.engine }])
      (InMemory.engine command s.engine).2.store)
    (point : (calls i).Point
      (Unmade calls (s.log ++ [{ caller := i, command, before := s.engine }]) (calls i).name)
      (Made (s.log ++ [{ caller := i, command, before := s.engine }]) i)
      (next (InMemory.engine command s.engine).1) (s.held i)) :
    Exclusive calls (s.step InMemory.engine i) := by
  rw [Interleaving.step_ask rest]
  refine ⟨kept, h.locked, h.single, fun j => ?_⟩
  by_cases hj : j = i
  · subst hj
    simpa only [Function.update_self] using point
  · simp only [Function.update_of_ne hj]
    refine (h.points j).imp (fun held unmade => unmade.append fun _ _ same => ?_) Made.append
    -- Both starts hold their names, so these differ.
    exact hj (h.single j i held holds same.symm)

/-! ## The steps -/

variable (h : Exclusive calls s)
include h

theorem Exclusive.deny (rest : s.rest i = (calls i).dialogue) (idle : s.held i = [])
    (denied : s.lock.acquire? (calls i).name = none) :
    Exclusive calls (s.step InMemory.engine i) := by
  rw [Interleaving.step_deny rest denied]
  refine ⟨h.kept, h.locked, h.single, fun j => ?_⟩
  have point := h.points_update (i := i) (.ended (v := .ok false) (by simp)) j
  rwa [← idle, Function.update_eq_self] at point

theorem Exclusive.grant {taken : List String} (rest : s.rest i = (calls i).dialogue)
    (idle : s.held i = []) (lock : s.lock = .exclusive taken)
    (locked : ∀ j, s.held j ≠ [] → (calls j).name ∈ taken) (free : (calls i).name ∉ taken) :
    Exclusive calls (s.step InMemory.engine i) := by
  have granted : s.lock.acquire? (calls i).name =
      some ((calls i).guard, .exclusive ((calls i).name :: taken)) := by
    simp [lock, StartLock.acquire?, free, StartCall.guard]
  rw [Interleaving.step_grant rest granted, idle]
  -- Nobody else holds the name, as the lock would know it.
  have alone {j : ι} (holds : s.held j ≠ []) : (calls j).name ≠ (calls i).name :=
    fun same => free (same ▸ locked j holds)
  have holder {j : ι} (hj : Function.update s.held i [(calls i).guard] j ≠ []) :
      j = i ∨ s.held j ≠ [] := by
    by_cases hji : j = i
    · exact .inl hji
    · exact .inr (by rwa [Function.update_of_ne hji] at hj)
  refine ⟨h.kept, ⟨_, rfl, fun j hj => ?_⟩, fun j k hj hk same => ?_,
    h.points_update .inspecting⟩
  · obtain rfl | hj := holder hj
    · exact List.mem_cons_self
    · exact List.mem_cons_of_mem _ (locked j hj)
  · obtain rfl | holdsj := holder hj <;> obtain rfl | holdsk := holder hk
    · rfl
    · exact absurd same.symm (alone holdsk)
    · exact absurd same (alone holdsj)
    · exact h.single j k holdsj holdsk same

theorem Exclusive.acquire (rest : s.rest i = (calls i).dialogue) (idle : s.held i = []) :
    Exclusive calls (s.step InMemory.engine i) := by
  obtain ⟨taken, lock, locked⟩ := h.locked
  by_cases held : (calls i).name ∈ taken
  · exact h.deny rest idle (by simp [lock, StartLock.acquire?, held])
  · exact h.grant rest idle lock locked held

theorem Exclusive.release {v : Except JobError Bool}
    (rest : s.rest i = .release (calls i).guard (.done v)) (holds : s.held i = [(calls i).guard])
    (success : v = .ok true → Made s.log i) : Exclusive calls (s.step InMemory.engine i) := by
  obtain ⟨taken, lock, locked⟩ := h.locked
  have nothing : [(calls i).guard].erase (calls i).guard = [] := by simp
  have released : s.lock.release (calls i).guard = .exclusive (taken.erase (calls i).name) := by
    simp [lock, StartLock.release, StartCall.guard]
  rw [Interleaving.step_release rest, holds, nothing, released]
  -- Who holds a name still does not do so by this step.
  have other {j : ι} (hj : Function.update s.held i [] j ≠ []) : j ≠ i ∧ s.held j ≠ [] := by
    by_cases hji : j = i
    · simp [hji] at hj
    · exact ⟨hji, by rwa [Function.update_of_ne hji] at hj⟩
  refine ⟨h.kept, ⟨_, rfl, fun j hj => ?_⟩, fun j k hj hk same => ?_,
    h.points_update (.ended success)⟩
  · have differs : (calls j).name ≠ (calls i).name := fun same =>
      (other hj).1 (h.single j i (other hj).2 (holds ▸ List.cons_ne_nil _ _) same)
    exact (List.mem_erase_of_ne differs).2 (locked j (other hj).2)
  · exact h.single j k (other hj).2 (other hk).2 same

theorem Exclusive.inspect
    (rest : s.rest i = (calls i).leave ((calls i).runner.startUnlocked (calls i).request))
    (holds : s.held i = [(calls i).guard]) : Exclusive calls (s.step InMemory.engine i) := by
  obtain ⟨reply, answer, tells⟩ := InMemory.engine_inspectState_cases s.engine (calls i).name
  have same : (InMemory.engine (.inspectState (calls i).name) s.engine).2 = s.engine := by
    rw [answer]
  have idle {id : String} : ¬ InMemory.Makes (.inspectState (calls i).name) s.engine id :=
    InMemory.not_makes_of_remains (by rw [same]; exact .refl _)
  refine h.ask (.inspectState (calls i).name) rest (holds ▸ List.cons_ne_nil _ _)
    (h.kept.append_idle same rfl) ?_
  rw [answer, holds]
  change (calls i).Point _ _
    ((calls i).leave ((calls i).proceed (Presence.ofReply reply).hindrance)) _
  cases hindrance : (Presence.ofReply reply).hindrance with
  | nothing => exact StartCall.point_launch
  | lasting => exact .leaving (by simp)
  | removable =>
    refine .stopping ?_
    -- A container that was made under the name would have been in the way.
    have unmade : Unmade calls s.log (calls i).name := by
      intro x hx id makes name
      obtain ⟨c, hc, -, new⟩ := h.kept.made x hx id makes
      rw [name] at new
      have found := h.kept.names.find?_of_mem hc (new.name ▸ (calls i).hyphen_mem_name)
      obtain unavailable | presence := tells
      · rw [unavailable] at hindrance
        cases hindrance
      · rw [presence, ContainerStore.presence, ← new.name, found, Option.elim_some,
          new.hindrance] at hindrance
        cases hindrance
    exact unmade.append fun id makes => absurd makes idle

theorem Exclusive.stop
    (rest : s.rest i = (calls i).replace (Dialogue.removeContainer (calls i).name))
    (holds : s.held i = [(calls i).guard]) (unmade : Unmade calls s.log (calls i).name) :
    Exclusive calls (s.step InMemory.engine i) := by
  have hyphen := (calls i).hyphen_mem_name
  have remains := InMemory.remains_engine_stop s.engine (calls i).name
  have kept := h.kept.append_removal (i := i) unmade hyphen rfl remains fun c hc other =>
    InMemory.mem_engine_stop h.kept.names hyphen hc other
  refine h.ask ["stop", (calls i).name] rest (holds ▸ List.cons_ne_nil _ _) kept ?_
  rw [holds]
  set reply := (s.engine.reply ["stop", (calls i).name]).1 with hreply
  change (calls i).Point _ _ ((calls i).replace (if reply.isNotFound then return true
    else StartCall.forceRemoval (calls i).name)) _
  split
  · exact StartCall.point_launch
  · exact .removing (unmade.append fun id makes =>
      absurd makes (InMemory.not_makes_of_remains remains))

theorem Exclusive.remove
    (rest : s.rest i = (calls i).replace (StartCall.forceRemoval (calls i).name))
    (holds : s.held i = [(calls i).guard]) (unmade : Unmade calls s.log (calls i).name) :
    Exclusive calls (s.step InMemory.engine i) := by
  have hyphen := (calls i).hyphen_mem_name
  have noOption := (calls i).head?_name_ne_hyphen
  have remains := InMemory.remains_engine_rm s.engine noOption
  have kept := h.kept.append_removal (i := i) unmade hyphen (InMemory.targets_rm noOption) remains
    fun c hc other => InMemory.mem_engine_rm h.kept.names hyphen noOption hc other
  refine h.ask ["rm", "-f", (calls i).name] rest (holds ▸ List.cons_ne_nil _ _) kept ?_
  rw [holds]
  set reply := (s.engine.reply ["rm", "-f", (calls i).name]).1 with hreply
  change (calls i).Point _ _ ((calls i).replace (return reply.isSuccess || reply.isNotFound)) _
  cases reply.isSuccess || reply.isNotFound with
  | true => exact StartCall.point_launch
  | false => exact .leaving (by simp)

theorem Exclusive.launch {p : LaunchPlan}
    (rest : s.rest i = (calls i).leave ((calls i).runner.launch (calls i).request))
    (plan : (calls i).runner.plan (calls i).request = .ok p)
    (holds : s.held i = [(calls i).guard]) : Exclusive calls (s.step InMemory.engine i) := by
  obtain ⟨task, -, -, args⟩ := Runner.plan_eq_ok plan
  obtain ⟨reply, answer, kept, success⟩ := h.kept.append_launch task args
  rw [Runner.launch, plan] at rest
  refine h.ask p.args rest (holds ▸ List.cons_ne_nil _ _) kept ?_
  rw [answer, holds]
  refine .leaving (v := .ok reply.isSuccess) fun ok => ?_
  obtain ⟨id, makes⟩ := success (Except.ok.inj ok)
  exact made_append_self (x := { caller := i, command := p.args, before := s.engine }) makes

/-- Every step of every start keeps the invariant. -/
theorem Exclusive.step (i : ι) : Exclusive calls (s.step InMemory.engine i) := by
  have point := h.points i
  generalize hd : s.rest i = d at point
  generalize hg : s.held i = held at point
  cases point with
  | waiting => exact h.acquire hd hg
  | inspecting => exact h.inspect hd hg
  | stopping unmade => exact h.stop hd hg unmade
  | removing unmade => exact h.remove hd hg unmade
  | launching plan => exact h.launch hd plan hg
  | leaving success => exact h.release hd hg success
  | ended success => rwa [Interleaving.step_done hd]

end Starts

/-! ## What starts keep of each other -/

variable {ι : Type} {calls : ι → StartCall}

/-- What holds of starts that share an engine and an exclusive lock. -/
structure ExclusiveStarts (calls : ι → StartCall) (s : Starts ι) : Prop where
  /-- A start holds no name but its own. -/
  guards : ∀ i, ∀ g ∈ s.held i, g = (calls i).guard
  /-- A name is held by one start at a time. -/
  single : ∀ i j, s.held i ≠ [] → s.held j ≠ [] → (calls i).name = (calls j).name → i = j
  /-- Of all starts for one name, one succeeds at most. -/
  success : ∀ i j, s.result? i = some (.ok true) → s.result? j = some (.ok true) →
    (calls i).name = (calls j).name → i = j
  /-- No start stops or removes a container that one of them made. -/
  spared : ∀ x ∈ s.log, ∀ y ∈ s.log, ∀ id, x.Makes id → ¬ y.Targets id
  /-- The container that a successful start made is there and runs. -/
  runs : ∀ i, s.result? i = some (.ok true) → ∃ x ∈ s.log, x.caller = i ∧
    ∃ c, s.engine.store.find? (calls i).name = some c ∧ x.Makes c.id ∧ c.IsNew (calls i).name

namespace Starts

variable {s : Starts ι} {i : ι}

theorem Exclusive.exists_new (h : Exclusive calls s) (success : s.result? i = some (.ok true)) :
    ∃ x ∈ s.log, x.caller = i ∧ ∃ c ∈ s.engine.store.containers, x.Makes c.id ∧
      c.IsNew (calls i).name := by
  have ended := Interleaving.result?_eq_some_iff.1 success
  obtain ⟨x, hx, rfl, id, makes⟩ := (h.points i).made_of_success ended
  obtain ⟨c, hc, rfl, new⟩ := h.kept.made x hx id makes
  exact ⟨x, hx, rfl, c, hc, makes, new⟩

theorem Exclusive.exclusiveStarts (h : Exclusive calls s) : ExclusiveStarts calls s where
  guards i := (h.points i).eq_guard
  single := h.single
  success i j hi hj same := by
    obtain ⟨x, hx, rfl, c, hc, makes, new⟩ := h.exists_new hi
    obtain ⟨y, hy, rfl, d, hd, makes', new'⟩ := h.exists_new hj
    -- Both made the one container of the name, and it was made once.
    obtain rfl := h.kept.names.eq_of_name hc hd (new.name.trans (same.trans new'.name.symm))
    exact h.kept.once x hx y hy c.id makes makes'
  spared := h.kept.spared
  runs i hi := by
    obtain ⟨x, hx, caller, c, hc, makes, new⟩ := h.exists_new hi
    have found := h.kept.names.find?_of_mem hc (new.name ▸ (calls i).hyphen_mem_name)
    exact ⟨x, hx, caller, c, new.name ▸ found, makes, new⟩

theorem exclusive_start {e : InMemory} (built : e.IsBuilt)
    (distinct : (e.store.containers.map (·.name)).Nodup) (taken : List String) :
    Exclusive calls (Interleaving.start e (.exclusive taken) fun i => (calls i).dialogue) where
  kept := by
    refine ⟨⟨built.numbered, distinct⟩, ?_, ?_, ?_, ?_⟩ <;> simp [Interleaving.start]
  locked := ⟨taken, rfl, by simp [Interleaving.start]⟩
  single := by simp [Interleaving.start]
  points _ := .waiting

end Starts

/-- Starts that share an engine with distinct names and an exclusive lock are done at
    most once for each name, and spare what they made, in whatever order they take
    their steps. -/
theorem starts_exclusive [DecidableEq ι] (calls : ι → StartCall) {e : InMemory}
    (built : e.IsBuilt) (distinct : (e.store.containers.map (·.name)).Nodup)
    (taken : List String) (schedule : List ι) :
    ExclusiveStarts calls ((Interleaving.start e (.exclusive taken) fun i =>
      (calls i).dialogue).run InMemory.engine schedule) :=
  (Interleaving.run_induction (I := Starts.Exclusive calls) (fun _ i h => h.step i) schedule
    (Starts.exclusive_start built distinct taken)).exclusiveStarts

/-- One start of a job. -/
def sampleCall : StartCall := ⟨Runner.sample, Runner.sampleRequest ⟨"lens", "run-1"⟩⟩

/-- A container of the job, which has ended. -/
def sampleLeftover : Container where
  id := ContainerStore.idOf 1
  name := sampleCall.name
  image := "ghcr.io/dockyard-images/test"
  labels := Assoc.ofPairs sampleCall.request.key.labels
  env := ["PROJECT_ID=" ++ sampleCall.request.key.project]
  state := .exited 0
  logs := ""

/-- An engine with a container of the job, which has ended. -/
def sampleOccupied : InMemory where
  store := .addJob {} sampleCall.name sampleCall.request.key (.exited 0)

theorem isBuilt_sampleOccupied : sampleOccupied.IsBuilt :=
  .addJob sampleCall.name sampleCall.request.key (.exited 0) .empty

theorem namesApart_sampleOccupied : sampleOccupied.store.NamesApart where
  numbered := isBuilt_sampleOccupied.numbered
  hyphens _ hc := List.mem_singleton.1 hc ▸ sampleCall.hyphen_mem_name
  nodup := List.nodup_singleton _

/-- Three starts of the job on this engine. -/
def sampleStarts : Starts (Fin 3) :=
  Interleaving.start sampleOccupied .fresh fun _ => sampleCall.dialogue

/-- The first start is granted the name, and the second one is refused it. -/
def sampleRefused : Starts (Fin 3) :=
  (sampleStarts.step InMemory.engine 0).step InMemory.engine 1

theorem sampleRefused_spec : sampleRefused.result? 1 = some (.ok false) ∧
    sampleRefused.rest 2 = sampleCall.dialogue ∧
    sampleRefused.alone InMemory.engine 0 = sampleStarts.alone InMemory.engine 0 := by
  have granted : sampleStarts.lock.acquire? sampleCall.name =
      some (sampleCall.guard, .exclusive [sampleCall.name]) := rfl
  have taken := Interleaving.step_grant (e := InMemory.engine) (s := sampleStarts) (i := 0) rfl
    granted
  have denied : (sampleStarts.step InMemory.engine 0).lock.acquire? sampleCall.name = none := by
    simp [taken, StartLock.acquire?]
  have waiting {j : Fin 3} (hj : j ≠ 0) :
      (sampleStarts.step InMemory.engine 0).rest j = sampleCall.dialogue :=
    Interleaving.rest_step_of_ne hj
  refine ⟨?_, (Interleaving.rest_step_of_ne (by decide)).trans (waiting (by decide)),
    (Interleaving.alone_step_of_deny (waiting (by decide)) denied (by decide)).trans
      Interleaving.alone_step⟩
  rw [sampleRefused, Interleaving.step_deny (waiting (by decide)) denied,
    Interleaving.result?_eq_some_iff]
  exact Function.update_self 1 _ (sampleStarts.step InMemory.engine 0).rest

/-- Alone, a start of the job makes its container anew. -/
theorem alone_sampleStarts : ∃ u : ContainerStore,
    sampleStarts.alone InMemory.engine 0 = (.ok true, { store := u }, .fresh) := by
  have apart := namesApart_sampleOccupied
  have same : sampleOccupied = { store := sampleOccupied.store } := rfl
  have free : StartLock.fresh.isHeld sampleCall.name = false := rfl
  have lock : ((sampleCall.runner.start sampleCall.request).run InMemory.engine
      { store := sampleOccupied.store } .fresh).lock = .fresh := Runner.start_run_lock _
  rw [sampleStarts, Interleaving.alone_start, same, StartCall.dialogue]
  obtain ⟨lasting, -⟩ | ⟨-, value, engine⟩ := InMemory.start_run apart free rfl rfl
  · -- What has ended does not last.
    have there : sampleOccupied.store.containers = [sampleLeftover] := rfl
    have found : sampleOccupied.store.find? sampleCall.name = some sampleLeftover :=
      ContainerStore.find?_of_mem apart (there ▸ List.mem_singleton_self _)
    have presence : sampleLeftover.presence = .found (.exited 0) :=
      Container.presence_eq_found ⟨⟨by decide, by decide⟩, rfl, ⟨by decide, by decide⟩,
        ⟨by decide, by decide⟩⟩ rfl
    change (sampleOccupied.store.presence sampleCall.name).hindrance = _ at lasting
    rw [ContainerStore.presence, found, Option.elim_some, presence] at lasting
    cases lasting
  · rw [value, engine, lock]
    exact ⟨_, rfl⟩

/-- Three starts of a job whose container has ended. The second one is refused the name that
    the first one holds. The first one makes the container anew, and the third one, which
    comes later, leaves it alone. -/
theorem starts_exclusive_of_three : sampleOccupied.IsBuilt ∧
    (sampleOccupied.store.containers.map (·.name)).Nodup ∧ ∃ n m,
      let s := sampleStarts.run InMemory.engine
        (0 :: 1 :: (List.replicate n 0 ++ List.replicate m 2))
      s.result? 0 = some (.ok true) ∧ s.result? 1 = some (.ok false) ∧
        s.result? 2 = some (.ok false) ∧ ExclusiveStarts (fun _ => sampleCall) s := by
  have exclusive (schedule : List (Fin 3)) := starts_exclusive (fun _ => sampleCall)
    isBuilt_sampleOccupied namesApart_sampleOccupied.nodup [] schedule
  obtain ⟨refused, waiting, same⟩ := sampleRefused_spec
  obtain ⟨u, alone⟩ := alone_sampleStarts
  obtain ⟨n, first, left⟩ := Interleaving.exists_run_replicate InMemory.engine sampleRefused 0
  rw [same, alone] at first left
  obtain ⟨engine, lock⟩ := Prod.mk.inj left
  generalize hs : sampleRefused.run InMemory.engine (List.replicate n 0) = s
    at first engine lock
  have others {j : Fin 3} (hj : j ≠ 0) : s.rest j = sampleRefused.rest j :=
    hs ▸ Interleaving.rest_run_replicate_of_ne hj n
  -- What the first start made is in the way of the third one.
  obtain ⟨-, -, -, c, found, -, new⟩ :=
    (hs ▸ exclusive (0 :: 1 :: List.replicate n 0)).runs 0 first
  have lasting : (u.presence sampleCall.name).hindrance = .lasting := by
    rw [engine] at found
    rw [ContainerStore.presence, found, Option.elim_some, new.hindrance]
  have third : (s.alone InMemory.engine 2).1 = .ok false := by
    rw [Interleaving.alone, others (by decide), waiting, engine, lock]
    exact (InMemory.start_run_of_lasting lasting rfl).1
  obtain ⟨m, later, -⟩ := Interleaving.exists_run_replicate InMemory.engine s 2
  have schedule : sampleStarts.run InMemory.engine
      (0 :: 1 :: (List.replicate n 0 ++ List.replicate m 2)) =
        s.run InMemory.engine (List.replicate m 2) := by
    rw [← hs, ← Interleaving.run_append]
    rfl
  have earlier {j : Fin 3} (hj : j ≠ 2) :
      (s.run InMemory.engine (List.replicate m 2)).result? j = s.result? j := by
    rw [Interleaving.result?, Interleaving.rest_run_replicate_of_ne hj, Interleaving.result?]
  refine ⟨isBuilt_sampleOccupied, namesApart_sampleOccupied.nodup, n, m, ?_, ?_, ?_,
    exclusive _⟩
  all_goals rw [schedule]
  · rw [earlier (by decide), first]
  · rw [earlier (by decide), Interleaving.result?, others (by decide), ← Interleaving.result?,
      refused]
  · rw [later, third]

end ContainerJobs

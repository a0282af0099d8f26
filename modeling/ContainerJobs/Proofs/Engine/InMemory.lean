import ContainerJobs.Engine.InMemory
import ContainerJobs.Proofs.Container.Store
import ContainerJobs.Proofs.Engine.Dialogue
import ContainerJobs.Runner.Inquiry
import ContainerJobs.Runner.Teardown

/-!
# What an engine in memory does

Each operation of a runner on an engine in memory that is up, as a function on its
store: what an inspection finds (`presence`), that a removal leaves the store
without the container of a name (`removeContainer_run`), and what the two commands
of a bulk cancel leave of a store (`remove_stop_shortIds`).
-/

namespace ContainerJobs

/-- A removal stops a container and removes it. -/
theorem Dialogue.asks_removeContainer_of {P : Command → Prop} {name : String}
    (stop : P ["stop", name]) (rm : P ["rm", "-f", name]) : (removeContainer name).Asks P := by
  refine .command_bind stop fun a => ?_
  cases a with
  | error f => trivial
  | ok reply =>
    simp only
    split
    · trivial
    · refine .command_bind rm fun a => ?_
      cases a <;> trivial

/-- The status of a job is read from one inspection. -/
theorem Runner.asks_status_of {P : Command → Prop} {r : Runner} {key : JobKey}
    (inspect : P (.inspectState (r.resourceName key))) : (r.status key).Asks P := by
  have observed : (Dialogue.observe (r.resourceName key)).Asks P :=
    .command_bind inspect fun _ => trivial
  exact observed.bind fun _ => trivial

/-- The report on a job is made from the full inspection and the output. -/
theorem Runner.asks_details_of {P : Command → Prop} {r : Runner} {key : JobKey}
    (inspect : P ["inspect", r.resourceName key]) (logs : P ["logs", r.resourceName key]) :
    (r.details key).Asks P := by
  have logged : (Dialogue.containerLogs (r.resourceName key)).Asks P :=
    .command_bind logs fun _ => trivial
  refine .command_bind inspect fun _ => ?_
  simp only
  split
  · trivial
  · exact logged.bind fun _ => trivial

namespace Text

theorem occurs_append {part l : List Char} (r : List Char) (h : occurs part l = true) :
    occurs part (l ++ r) = true := by
  induction l with
  | nil =>
    rw [occurs, List.isEmpty_iff] at h
    subst h
    cases r <;> simp [occurs]
  | cons c l ih =>
    rw [occurs, Bool.or_eq_true] at h
    rw [List.cons_append, occurs, Bool.or_eq_true]
    refine h.imp (fun h => ?_) ih
    rw [List.isPrefixOf_iff_prefix] at h ⊢
    exact h.trans (List.prefix_append (c :: l) r)

end Text

namespace InMemory

/-! ## Replies -/

theorem isNotFound_refuse {code : Int} {start rest : String} (hc : code ≠ 0)
    (h : Text.occurs "no such object".toList (Text.asciiLower start).toList = true ∨
      Text.occurs "no such container".toList (Text.asciiLower start).toList = true) :
    (refuse code (start ++ rest)).isNotFound = true := by
  have lower : (Text.asciiLower (start ++ rest)).toList =
      (Text.asciiLower start).toList ++ (Text.asciiLower rest).toList := by
    simp [Text.asciiLower]
  have occurs := h.imp (Text.occurs_append (Text.asciiLower rest).toList)
    (Text.occurs_append (Text.asciiLower rest).toList)
  simp only [Reply.isNotFound, Reply.isSuccess, refuse, lower, Bool.and_eq_true, Bool.or_eq_true]
  exact ⟨by simpa using hc, occurs⟩

@[simp] theorem isNotFound_noObject (address : String) :
    (noObject address).isNotFound = true := by
  rw [noObject, String.append_assoc]
  exact isNotFound_refuse (by decide) (.inl (by decide))

@[simp] theorem isNotFound_noContainer (address : String) :
    (noContainer address).isNotFound = true := by
  rw [noContainer, String.append_assoc]
  exact isNotFound_refuse (by decide) (.inr (by decide))

@[simp] theorem isSuccess_succeed (stdout : String) : (succeed stdout).isSuccess = true := rfl

@[simp] theorem stdout_succeed (stdout : String) : (succeed stdout).stdout = stdout := rfl

@[simp] theorem combined_succeed (stdout : String) : (succeed stdout).combined = stdout := by
  simp [succeed, Reply.combined]

@[simp] theorem isNotFound_succeed (stdout : String) : (succeed stdout).isNotFound = false := rfl

/-! ## Inspection -/

/-- The line that tells the state of a container. -/
def statusLine (c : Container) : String :=
  if c.garbled then "<no value>\n" else stateLine c.state

end InMemory

/-- What an inspection finds out about a container. -/
def Container.presence (c : Container) : Presence :=
  match ContainerState.ofLine? (InMemory.statusLine c) with
  | some state => .found state
  | none => .unreadable

/-- What an inspection finds at an address. -/
def ContainerStore.presence (s : ContainerStore) (address : String) : Presence :=
  (s.find? address).elim .missing Container.presence

namespace InMemory

variable {s : ContainerStore} {name : String} {lock : StartLock}

theorem engine_inspectState (s : ContainerStore) (name : String) :
    engine (.inspectState name) { store := s } =
      (.ok ((s.find? name).elim (noObject name) fun c => succeed (statusLine c)),
        { store := s }) := by
  have last : (Command.inspectState name).getLastD "" = name := rfl
  have format : optionValues "--format" (Command.inspectState name) =
      [ContainerState.lineFormat] := by
    simp [optionValues, Command.inspectState, ContainerState.lineFormat]
  change ((Except.ok (inspect s (.inspectState name)) : Answer), ({ store := s } : InMemory)) = _
  rw [inspect, last, format]
  cases s.find? name with
  | none => rfl
  | some c => simp [statusLine]

theorem ofReply_inspectState (s : ContainerStore) (name : String) :
    Presence.ofReply ((s.find? name).elim (noObject name) fun c => succeed (statusLine c)) =
      s.presence name := by
  rw [ContainerStore.presence]
  cases s.find? name with
  | none => simp [Presence.ofReply]
  | some c =>
    simp only [Presence.ofReply, Option.elim_some, isNotFound_succeed, isSuccess_succeed,
      Bool.false_eq_true, if_false, Bool.not_true, Container.presence]
    rfl

@[simp] theorem observe_run (s : ContainerStore) (name : String) (lock : StartLock) :
    (Dialogue.observe name).run engine { store := s } lock =
      { value := s.presence name, engine := { store := s }, lock,
        calls := [.inspectState name] } := by
  simp only [Dialogue.observe, Dialogue.command_bind, Dialogue.run_ask, Dialogue.run_pure,
    engine_inspectState, Presence.ofAnswer, ofReply_inspectState]

/-- Nothing is there exactly if no container answers. -/
theorem presence_eq_missing_iff : s.presence name = .missing ↔ s.find? name = none := by
  rw [ContainerStore.presence]
  cases s.find? name with
  | none => simp
  | some c =>
    simp only [Option.elim_some, Container.presence, reduceCtorEq, iff_false]
    split <;> simp

/-! ## Changes from outside -/

theorem isSome_modify? (s : ContainerStore) (address : String) (f : Container → Container) :
    (modify? { store := s } address f).isSome = (s.find? address).isSome := by
  rw [modify?, Bool.eq_iff_iff, Option.isSome_ite]

theorem getD_modify? (e : InMemory) (address : String) (f : Container → Container) :
    (e.modify? address f).getD e = { e with store := e.store.modify address f } := by
  rw [modify?]
  split
  · rfl
  · next h =>
    rw [ContainerStore.modify_of_find?_eq_none (by simpa using h)]
    rfl

theorem modify?_getD (s : ContainerStore) (address : String) (f : Container → Container) :
    (modify? { store := s } address f).getD { store := s } = { store := s.modify address f } :=
  getD_modify? { store := s } address f

/-! ## Removal -/

theorem forEach_singleton (f : ContainerStore → String → ContainerStore) (s : ContainerStore)
    (address : String) : forEach f s [address] =
      if (s.find? address).isSome then ([], f s address) else ([address], s) := by
  simp only [forEach]

/-- A container after a stop. -/
def stopped (c : Container) : Container :=
  { c with state := c.state.stopped }

theorem engine_stop (s : ContainerStore) (addresses : List String) :
    engine ("stop" :: addresses) { store := s } =
      (.ok (unlessMissing (forEach (fun s a => s.modify a stopped) s addresses).1
          (String.intercalate "\n" addresses)),
        { store := (forEach (fun s a => s.modify a stopped) s addresses).2 }) := rfl

theorem engine_rm (s : ContainerStore) (addresses : List String)
    (h : ∀ a ∈ addresses, a.toList.head? ≠ some '-') :
    engine ("rm" :: "-f" :: addresses) { store := s } =
      (.ok (unlessMissing (forEach ContainerStore.erase s addresses).1 ""),
        { store := (forEach ContainerStore.erase s addresses).2 }) := by
  have filter : ("-f" :: addresses).filter (fun a => a.toList.head? != some '-') = addresses := by
    rw [List.filter_cons_of_neg (by decide), List.filter_eq_self]
    simpa using h
  change ((Except.ok (remove s ("-f" :: addresses)).1 : Answer),
    ({ store := (remove s ("-f" :: addresses)).2 } : InMemory)) = _
  rw [remove, filter]

theorem removeContainer_run (s : ContainerStore) {name : String} (lock : StartLock)
    (h : name.toList.head? ≠ some '-') :
    ((Dialogue.removeContainer name).run engine { store := s } lock).value = true ∧
      ((Dialogue.removeContainer name).run engine { store := s } lock).engine =
        { store := s.erase name } := by
  simp only [Dialogue.removeContainer, Dialogue.command_bind, Dialogue.run_ask, engine_stop,
    forEach_singleton]
  cases found : (s.find? name).isSome with
  | false =>
    rw [ContainerStore.erase_of_find?_eq_none (by simpa using found)]
    simp [unlessMissing]
  | true =>
    -- A stopped container still answers to its name.
    have still : ((s.modify name stopped).find? name).isSome = true := by
      rw [ContainerStore.isSome_find?_modify (f := stopped) (fun _ => rfl), found]
    have erased := ContainerStore.erase_modify s name (f := stopped) (fun _ => rfl)
    simp [unlessMissing, engine_rm _ [name] (by simpa using h), forEach_singleton,
      still, erased]

/-! ## Removal by short ids -/

theorem filter_map_eq_filter {α : Type} {f : α → α} {p : α → Bool} {l : List α}
    (same : ∀ a ∈ l, p (f a) = p a) (kept : ∀ a ∈ l, p a = true → f a = a) :
    (l.map f).filter p = l.filter p := by
  rw [List.filter_map, List.filter_congr (p := p ∘ f) (q := p) same]
  refine (List.map_congr_left fun a ha => ?_).trans (List.map_id _)
  exact kept a (List.mem_filter.1 ha).1 (List.mem_filter.1 ha).2

/-- Stopping containers by their short ids changes those and no others. -/
theorem forEach_stop_shortIds {ids : List String} {chosen : List Container}
    (h : s.ShortIdsApart) (there : ∀ c ∈ chosen, c.id ∈ s.containers.map (·.id))
    (listed : ∀ c ∈ chosen, c.id ∈ ids) :
    ∃ t : ContainerStore, forEach (fun s a => s.modify a stopped) s
        (chosen.map (·.shortId)) = ([], t) ∧ t.IsPart s ∧
      t.containers.map (·.id) = s.containers.map (·.id) ∧
      t.containers.filter (·.id ∉ ids) = s.containers.filter (·.id ∉ ids) := by
  induction chosen generalizing s with
  | nil => exact ⟨s, rfl, .refl s, rfl, rfl⟩
  | cons c chosen ih =>
    obtain ⟨d, hd, hid⟩ := List.mem_map.1 (there c List.mem_cons_self)
    have short : c.shortId = d.shortId := by rw [Container.shortId, ← hid, Container.shortId]
    have part := ContainerStore.isPart_modify s d.shortId (f := stopped) (fun _ => rfl)
    have sameIds : (s.modify d.shortId stopped).containers.map (·.id) =
        s.containers.map (·.id) :=
      ContainerStore.map_modifyFirst (f := stopped) (fun _ => rfl) _
    obtain ⟨t, ht, part', ids', rest⟩ := ih (h.of_isPart part)
      (fun c hc => sameIds ▸ there c (List.mem_cons_of_mem _ hc))
      (fun c hc => listed c (List.mem_cons_of_mem _ hc))
    refine ⟨t, ?_, part'.trans part, ids'.trans sameIds, rest.trans ?_⟩
    · rw [List.map_cons, short, forEach, if_pos (ContainerStore.isSome_find?_shortId h hd), ht]
    · -- What is kept has an id that is not listed, so this stop did not change it.
      have hmem : d.id ∈ ids := hid ▸ listed c List.mem_cons_self
      rw [ContainerStore.modify_shortId h hd]
      refine filter_map_eq_filter (fun e _ => ?_) (fun e _ he => if_neg fun heq => ?_)
      · split <;> rfl
      · rw [heq] at he
        simp [hmem] at he

/-- Removing containers by their short ids leaves the others as they are. -/
theorem forEach_erase_shortIds {chosen : List Container} (h : s.ShortIdsApart)
    (there : ∀ c ∈ chosen, c.id ∈ s.containers.map (·.id)) (nodup : (chosen.map (·.id)).Nodup) :
    forEach ContainerStore.erase s (chosen.map (·.shortId)) =
      ([], { s with containers := s.containers.filter (·.id ∉ chosen.map (·.id)) }) := by
  induction chosen generalizing s with
  | nil => simp [forEach]
  | cons c chosen ih =>
    obtain ⟨d, hd, hid⟩ := List.mem_map.1 (there c List.mem_cons_self)
    obtain ⟨fresh, nodup⟩ := List.nodup_cons.1 nodup
    have short : c.shortId = d.shortId := by rw [Container.shortId, ← hid, Container.shortId]
    -- The ids are distinct, so this removal takes none of those still to come.
    have rest : ∀ c' ∈ chosen, c'.id ∈ (s.containers.filter (·.id ≠ d.id)).map (·.id) := by
      intro c' hc'
      obtain ⟨d', hd', hid'⟩ := List.mem_map.1 (there c' (List.mem_cons_of_mem _ hc'))
      have hne : d'.id ≠ d.id := fun heq =>
        fresh (List.mem_map.2 ⟨c', hc', by rw [← hid', heq, hid]⟩)
      exact List.mem_map.2 ⟨d', List.mem_filter.2 ⟨hd', by simpa using hne⟩, hid'⟩
    have apart := h.of_isPart (ContainerStore.isPart_filter s (·.id ≠ d.id))
    rw [List.map_cons, short, forEach, if_pos (ContainerStore.isSome_find?_shortId h hd),
      ContainerStore.erase_shortId h hd, ih apart rest nodup]
    congr 2
    simp only [List.filter_filter, List.map_cons, List.mem_cons, not_or, hid]
    refine List.filter_congr fun e _ => ?_
    simp [Bool.and_comm]

/-- What a bulk cancel leaves of a store whose chosen containers it stops and
    removes by their short ids. -/
theorem remove_stop_shortIds (h : s.ShortIdsApart) (p : Container → Bool) {ids : List String}
    (hids : ids = (s.containers.filter p).map (·.shortId)) :
    (engine ("rm" :: "-f" :: ids) (engine ("stop" :: ids) { store := s }).2).2 =
      { store := { s with containers := s.containers.filter fun c => !p c } } := by
  -- The stop leaves every container in place, so the removal finds the same ones.
  have there : ∀ c ∈ s.containers.filter p, c.id ∈ s.containers.map (·.id) := fun c hc =>
    List.mem_map_of_mem (List.mem_filter.1 hc).1
  have nodup := h.numbered.nodup_ids
  obtain ⟨t, ht, part, sameIds, rest⟩ := forEach_stop_shortIds h there
    (fun c hc => List.mem_map_of_mem (f := fun c : Container => c.id) hc)
  -- No short id looks like an option of the command.
  have noOption : ∀ a ∈ ids, a.toList.head? ≠ some '-' := by
    rintro a ha hhead
    obtain ⟨c, hc, rfl⟩ := List.mem_map.1 (hids ▸ ha)
    rw [Container.shortId, String.toList_ofList] at hhead
    exact h.numbered.hyphen_not_mem (List.mem_filter.1 hc).1
      (List.mem_of_mem_take (List.mem_of_head? hhead))
  have unchosen : s.containers.filter (·.id ∉ (s.containers.filter p).map (·.id)) =
      s.containers.filter fun c => !p c := by
    refine List.filter_congr fun c hc => ?_
    have chosen_iff : c.id ∈ (s.containers.filter p).map (·.id) ↔ p c = true := by
      constructor
      · intro hm
        obtain ⟨d, hd, hid⟩ := List.mem_map.1 hm
        rw [← List.inj_on_of_nodup_map nodup (List.mem_filter.1 hd).1 hc hid]
        exact (List.mem_filter.1 hd).2
      · exact fun hp => List.mem_map_of_mem (List.mem_filter.2 ⟨hc, hp⟩)
    simp only [chosen_iff]
    cases p c <;> rfl
  rw [engine_stop, hids, ht]
  rw [engine_rm t _ (hids ▸ noOption), forEach_erase_shortIds (h.of_isPart part) (by rwa [sameIds])
    (nodup.sublist (List.filter_sublist.map _)), rest, unchosen, part.last]

end InMemory

end ContainerJobs

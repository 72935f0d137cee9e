import PolicyGate.Proofs.Pipeline.Enforced
import PolicyGate.Proofs.Pipeline.Shutdown
import PolicyGate.Proofs.Store.Expiry

/-!
What the clock can hold. A worker computes its deadline when it starts and a cache computes the end
of a record when it is written, and both give up if the clock cannot hold the result. Main
statements: a gatehouse goes wrong in this way exactly if the clock has no room for the settings of
its configuration, and goes on without a loss as long as there is room (`clock_suffices`). An
accepted configuration may leave no room at any time (`accepted_without_room`).
-/

namespace PolicyGate

namespace Instant

variable {t now : Instant} {d d' : Duration}

/-- The clock can hold the point a length of time later. -/
def HasRoom (now : Instant) (d : Duration) : Prop :=
  (now.nanos + d.nanos) / 1000000000 ≤ maxSeconds

instance (now : Instant) (d : Duration) : Decidable (now.HasRoom d) :=
  inferInstanceAs (Decidable (_ ≤ _))

theorem after?_of_hasRoom (h : now.HasRoom d) : now.after? d = some (now.plus d) := if_pos h

theorem after?_eq_none_iff : now.after? d = none ↔ ¬ now.HasRoom d := by
  unfold after? HasRoom
  split <;> simp_all

theorem HasRoom.mono (h : now.HasRoom d) (ht : t ≤ now) (hd : d'.nanos ≤ d.nanos) :
    t.HasRoom d' :=
  Nat.le_trans (Nat.div_le_div_right (Nat.add_le_add ht hd)) h

end Instant

/-! ## Deadlines -/

namespace Worker

variable {timeout : Duration} {w w' : Worker} {m : WorkerMove} {answers : Answers}

theorem start_of_hasRoom {now : Instant} (hp : w.phase = .spawned) (h : now.HasRoom timeout) :
    w.start now timeout = some ({ w with phase := .reading (now.plus timeout) }, []) := by
  simp only [start, hp, Instant.after?_of_hasRoom h]

theorem start_of_not_hasRoom {now : Instant} (hp : w.phase = .spawned)
    (h : ¬ now.HasRoom timeout) : w.start now timeout = w.crash := by
  simp only [start, hp, Instant.after?_eq_none_iff.2 h]

theorem Moved.phase_ne_crashed (h : Moved timeout w m w' answers)
    (hm : m.isFatal timeout = false) : w'.phase ≠ .crashed := by
  cases h with
  | begin | look | find | miss | decide | close | closeUnknown | finish => exact nofun
  | join hp | ignore hp => simp [hp]
  | die _ hf => rw [hm] at hf; cases hf

end Worker

namespace Coordinator

variable {c c' : Coordinator}

/-- No worker has died. -/
def Unharmed (c : Coordinator) : Prop := ∀ w ∈ c.workers, w.phase ≠ .crashed

theorem Unharmed.set {place : Nat} {w : Worker} (H : Unharmed c) (hw : w.phase ≠ .crashed) :
    ∀ v ∈ c.workers.set place w, v.phase ≠ .crashed := by
  intro v hv
  rcases List.mem_or_eq_of_mem_set hv with hv | rfl
  · exact H v hv
  · exact hw

theorem Unharmed.routed {e : Event} (H : Unharmed c) (h : Routed e c c') : Unharmed c' := by
  cases h with
  | @join _ _ w _ _ hw => exact H.set (w := w.receive _) (H w (List.mem_of_getElem? hw))
  | spawn =>
    intro v hv
    rcases List.mem_append.1 hv with hv | hv
    · exact H v hv
    · rw [List.mem_singleton.1 hv]
      exact nofun
  | @tell _ w _ _ hw => exact H.set (w := w.receive _) (H w (List.mem_of_getElem? hw))
  | reap => exact H

theorem Run.unharmed (h : Run c c') (H : Unharmed c) : Unharmed c' :=
  h.keep (fun _ hm hf H => H.set (hm.phase_ne_crashed hf)) (fun hr H => H.routed hr) H

end Coordinator

/-! ## Expiry -/

namespace Store

variable {α : Type} {type : RecordType α} {s s' : Store} {now : Instant} {key : String} {r : α}
  {requested : Option Duration}

/-- How long a store keeps a record at most, if it is a cache. -/
def life? : Store → Option Duration
  | timed swept => some swept.cache.ttl
  | memory _ => none
  | table _ => none

theorem life?_put (h : s.put type now key r requested = .ok s') : s'.life? = s.life? := by
  cases written_of_put h <;> rfl

theorem life?_get (s : Store) (type : RecordType α) (now : Instant) (key : String) :
    (s.get type now key).2.life? = s.life? := by
  cases s with
  | memory | table => rfl
  | timed swept =>
    simp only [get, TimedCache.get]
    split
    · exact congrArg some (swept.cache.sheds_dropExpired now _).ttl
    · rfl

theorem life?_advance (s : Store) (now : Instant) (elapsed : Duration) :
    (s.advance now elapsed).life? = s.life? := by
  cases s with
  | memory | table => rfl
  | timed swept => exact congrArg some (swept.sheds_advance now elapsed).ttl

theorem nanos_effectiveTtl_le (cache : TimedCache) (requested : Option Duration) :
    (cache.effectiveTtl requested).nanos ≤ cache.ttl.nanos := by
  unfold TimedCache.effectiveTtl
  split
  · split
    · assumption
    · exact Nat.le_refl _
  · exact Nat.le_refl _

/-- How long a record lives in a cache with a time to live. -/
def lifetime (ttl : Duration) (requested : Option Duration) : Duration :=
  (TimedCache.new ttl).effectiveTtl requested

/-- A write overflows the clock just if there is no room for the lifetime of its entry. -/
theorem overflows_iff :
    s.Overflows now requested ↔
      ∃ ttl, s.life? = some ttl ∧ ¬ now.HasRoom (lifetime ttl requested) := by
  constructor
  · rintro ⟨swept, rfl, h⟩
    exact ⟨swept.cache.ttl, rfl, Instant.after?_eq_none_iff.1 h⟩
  · rintro ⟨ttl, hlife, h⟩
    cases s with
    | memory | table => cases hlife
    | timed swept =>
      cases hlife
      exact ⟨swept, rfl, Instant.after?_eq_none_iff.2 h⟩

theorem put_eq_clockOverflow_iff :
    s.put type now key r requested = .error .clockOverflow ↔
      ∃ ttl, s.life? = some ttl ∧ ¬ now.HasRoom (lifetime ttl requested) := by
  rw [← overflows_iff]
  refine ⟨overflows_of_put, ?_⟩
  rintro ⟨swept, rfl, h⟩
  simp [put, TimedCache.put, h]

theorem not_overflows_of_hasRoom (h : ∀ ttl, s.life? = some ttl → now.HasRoom ttl) :
    ¬ s.Overflows now requested := by
  rw [overflows_iff]
  rintro ⟨ttl, hlife, hno⟩
  exact hno ((h ttl hlife).mono (Nat.le_refl _) (nanos_effectiveTtl_le (.new ttl) requested))

end Store

/-! ## Runs -/

/-- A stage has not died of an entry. -/
def Consumer.Lives {ω : Type} (crashed : ω) (stage : Consumer ω) : Prop :=
  stage.state ≠ .over .crashed ∧ ∀ token, stage.state ≠ .busy token crashed

theorem Consumer.Lives.busy {ω : Type} {crashed work : ω} {reader : Reader} {token : Token}
    (h : work ≠ crashed) : (⟨reader, .busy token work⟩ : Consumer ω).Lives crashed :=
  ⟨nofun, fun _ hb => h (ConsumerState.busy.inj hb).2⟩

namespace Pipeline

variable {p₀ p q : Pipeline} {e : Event} {fault : Option StoreError}
  {timeout : Duration}

/-- Runs in which nothing but the clock lets a worker die. -/
inductive Undisturbed (p₀ : Pipeline) : Pipeline → Prop
  | start : Undisturbed p₀ p₀
  | step {p q : Pipeline} {e : Event} : Undisturbed p₀ p →
    (∀ place, e ≠ .workerCrash place) → p.step e = some q → Undisturbed p₀ q

theorem now_le_of_step (h : p.step e = some q) : p.now ≤ q.now := by
  cases stepped h with
  | wait => exact Nat.le_add_right _ _
  | _ => exact Nat.le_refl _

/-- No step changes how long the stores keep their records. -/
theorem life?_of_step (h : p.step e = some q) :
    q.authorised.life? = p.authorised.life? ∧ q.offsets.life? = p.offsets.life? := by
  cases stepped h with
  | @access fault _ _ _ _ _ _ hs =>
    cases hs with
    | @record _ _ g rules =>
      refine ⟨?_, rfl⟩
      cases hp : p.putAuthorised fault (g.authorisation rules) with
      | error => rfl
      | ok => exact Store.life?_put (put_of_putAuthorised hp)
    | take | drained | next | refused | crashed | decide | lookUp | publish | refuse | report =>
      exact ⟨rfl, rfl⟩
  | @index fault _ _ _ _ _ _ hs =>
    cases hs with
    | @record _ _ o =>
      refine ⟨rfl, ?_⟩
      cases hp : p.putOffset fault o with
      | error => rfl
      | ok => exact Store.life?_put (put_of_putOffset hp)
    | take | drained | next | report | crashed | announce => exact ⟨rfl, rfl⟩
  | lookup => exact ⟨rfl, Store.life?_get ..⟩
  | wait => exact ⟨Store.life?_advance .., Store.life?_advance ..⟩
  | _ => exact ⟨rfl, rfl⟩

/-- The clock has room for the time-out of the workers and for the life of what is stored. -/
structure HasRoom (p : Pipeline) (now : Instant) : Prop where
  timeout : now.HasRoom p.coordinator.timeout
  authorised : ∀ ttl, p.authorised.life? = some ttl → now.HasRoom ttl
  offsets : ∀ ttl, p.offsets.life? = some ttl → now.HasRoom ttl

/-- Neither stage has died of an entry. -/
structure StagesLive (p : Pipeline) : Prop where
  access : ∀ stage, p.access = some stage → stage.Lives .crashed
  index : ∀ stage, p.index = some stage → stage.Lives .crashed

theorem ofRecording_ne_crashed {g : Grant} {rules : Option RecordRules}
    (hroom : ¬ p.authorised.Overflows p.now none) :
    AccessWork.ofRecording g rules (p.putAuthorised fault (g.authorisation rules)) ≠ .crashed := by
  cases hp : p.putAuthorised fault (g.authorisation rules) with
  | ok => exact nofun
  | error e =>
    cases e with
    | failed => exact nofun
    | clockOverflow => exact absurd (overflows_of_putAuthorised hp) hroom

theorem index_ofRecording_ne_crashed {o : TokenOffset}
    (hroom : ¬ p.offsets.Overflows p.now (some p.wiring.offsetTtl)) :
    IndexWork.ofRecording o (p.putOffset fault o) ≠ .crashed := by
  cases hp : p.putOffset fault o with
  | ok => exact nofun
  | error e =>
    cases e with
    | failed => exact nofun
    | clockOverflow => exact absurd (overflows_of_putOffset hp) hroom

/-- With room for its records, the policy stage does not die. -/
theorem AccessStepped.lives {stage stage' : Consumer AccessWork} {authorised : Store}
    {output : Log AuthorisedResource} {errors : Log AuditEvent}
    (h : p.AccessStepped fault stage authorised output errors stage')
    (hroom : ¬ p.authorised.Overflows p.now none) (H : stage.Lives .crashed) :
    stage'.Lives .crashed := by
  cases h with
  | @take _ entry =>
    refine .busy ?_
    unfold AccessWork.ofEnvelope
    split <;> exact nofun
  | @decide _ _ token q =>
    refine .busy ?_
    rcases p.policies.decide p.users token q with e | _ | g <;> exact nofun
  | record => exact .busy (ofRecording_ne_crashed hroom)
  | crashed => exact absurd rfl (H.2 _)
  | lookUp | publish | refuse | report => exact .busy nofun
  | drained | next | refused => exact ⟨nofun, nofun⟩

theorem IndexStepped.lives {stage stage' : Consumer IndexWork} {offsets : Store}
    {coordinator : Coordinator} {errors : Log AuditEvent}
    (h : p.IndexStepped fault stage offsets coordinator errors stage')
    (hroom : ¬ p.offsets.Overflows p.now (some p.wiring.offsetTtl)) (H : stage.Lives .crashed) :
    stage'.Lives .crashed := by
  cases h with
  | take =>
    refine .busy ?_
    unfold IndexWork.ofEnvelope
    split <;> exact nofun
  | record => exact .busy (index_ofRecording_ne_crashed hroom)
  | announce => exact .busy nofun
  | crashed => exact absurd rfl (H.2 _)
  | drained | next | report => exact ⟨nofun, nofun⟩

/-- With room for all records, no step kills a stage. -/
theorem StagesLive.step (H : StagesLive p) (hroom : p.HasRoom p.now) (h : p.step e = some q) :
    StagesLive q := by
  cases stepped h with
  | access ha hs =>
    have hstage := hs.lives (Store.not_overflows_of_hasRoom hroom.authorised) (H.access _ ha)
    exact ⟨fun _ hstage' => Option.some.inj hstage' ▸ hstage, H.index⟩
  | index hi hs =>
    have hstage := hs.lives (Store.not_overflows_of_hasRoom hroom.offsets) (H.index _ hi)
    exact ⟨H.access, fun _ hstage' => Option.some.inj hstage' ▸ hstage⟩
  | _ => exact ⟨H.access, H.index⟩

/-- With room for the time-out, the only step that a worker dies of is a crash. -/
theorem Drives.not_isFatal {ce : Coordinator.Event} (h : p.Drives e ce)
    (he : ∀ place, e ≠ .workerCrash place) (hroom : p.now.HasRoom timeout) :
    ce.isFatal timeout = false := by
  cases h with
  | command hc =>
    cases e with
    | workerCrash place => exact absurd rfl (he place)
    | workerStart place =>
      cases hc
      simp [Coordinator.Event.isFatal, Coordinator.Event.move?, WorkerMove.isFatal,
        Instant.after?_of_hasRoom hroom]
    | ask | announce | cancel | workerResolve | workerExpire | workerHandle | workerHangUp
    | workerDrain | workerLeave | reap | shutdownCoordinator => cases hc; rfl
    | _ => cases hc
  | reading | index | lookup | fail => rfl

theorem run_of_step (he : ∀ place, e ≠ .workerCrash place) {c : Coordinator}
    (H : Coordinator.Run c p.coordinator) (hroom : p.now.HasRoom p.coordinator.timeout)
    (h : p.step e = some q) : Coordinator.Run c q.coordinator := by
  rcases coordinator_of_step h with hc | ⟨ce, hd, hs⟩
  · rwa [hc]
  · exact H.step (hd.not_isFatal he hroom) hs

theorem timeout_of_step (h : p.step e = some q) :
    q.coordinator.timeout = p.coordinator.timeout := by
  rcases coordinator_of_step h with hc | ⟨ce, -, hs⟩
  · rw [hc]
  · exact Coordinator.timeout_step hs

theorem HasRoom.of_step {now : Instant} (H : q.HasRoom now) (h : p.step e = some q) :
    p.HasRoom now := by
  obtain ⟨hauthorised, hoffsets⟩ := life?_of_step h
  exact ⟨timeout_of_step h ▸ H.timeout, hauthorised ▸ H.authorised, hoffsets ▸ H.offsets⟩

theorem HasRoom.earlier {t now : Instant} (H : p.HasRoom now) (h : t ≤ now) : p.HasRoom t where
  timeout := H.timeout.mono h (Nat.le_refl _)
  authorised ttl hlife := (H.authorised ttl hlife).mono h (Nat.le_refl _)
  offsets ttl hlife := (H.offsets ttl hlife).mono h (Nat.le_refl _)

theorem stagesLive_start (wiring : Wiring) (policies : PolicyService) (users : UserDirectory)
    (authorised offsets : Store) (timeout : Duration) :
    StagesLive (start wiring policies users authorised offsets timeout) := by
  constructor
  · rintro _ ⟨⟩
    exact ⟨nofun, nofun⟩
  · rintro _ ⟨⟩
    exact ⟨nofun, nofun⟩

namespace Undisturbed

theorem lives (h : Undisturbed p₀ p) : p.authorised.life? = p₀.authorised.life? ∧
    p.offsets.life? = p₀.offsets.life? ∧ p.coordinator.timeout = p₀.coordinator.timeout := by
  induction h with
  | start => exact ⟨rfl, rfl, rfl⟩
  | step _ _ hs ih =>
    obtain ⟨hauthorised, hoffsets⟩ := life?_of_step hs
    exact ⟨hauthorised.trans ih.1, hoffsets.trans ih.2.1, (timeout_of_step hs).trans ih.2.2⟩

/-- Room at the end is room all the way, so that no worker and no stage dies. -/
theorem unharmed (h : Undisturbed p₀ p) (h₀ : StagesLive p₀) (hroom : p.HasRoom p.now) :
    Coordinator.Run p₀.coordinator p.coordinator ∧ StagesLive p := by
  induction h with
  | start => exact ⟨.refl, h₀⟩
  | step _ he hs ih =>
    have hbefore := (hroom.of_step hs).earlier (now_le_of_step hs)
    obtain ⟨hrun, hlive⟩ := ih hbefore
    exact ⟨run_of_step he hrun hbefore.timeout hs, hlive.step hbefore hs⟩

end Undisturbed

end Pipeline

/-! ## Gatehouses -/

/-- The clock has room for the settings of a configuration; only the profile whose offsets expire
makes use of their time to live. -/
structure AppConfig.HasRoom (c : AppConfig) (now : Instant) : Prop where
  timeout : now.HasRoom c.workerTimeout
  offsetTtl : c.store.profile = .ttl → now.HasRoom c.store.offsetTtl

theorem Stores.life?_of_ofSettings {folder : Folder} {settings : StoreSettings} {stores : Stores}
    (h : ofSettings folder settings = .ok stores) : stores.authorised.life? = none ∧
      stores.offsets.life? = if settings.profile = .ttl then some settings.offsetTtl else none := by
  unfold ofSettings at h
  split at h
  · next hp => cases h; simp [Store.life?, hp]
  · next hp => cases h; simp [Store.life?, hp, TimedCache.new]
  · next hp =>
    split at h
    · cases h; simp [Store.life?, hp]
    · cases h
  · cases h

/-- What a gatehouse starts with comes from its configuration. -/
theorem Gatehouse.pipeline_of_start {host : Host} {clock : Timestamp} {c : AppConfig}
    {g : Gatehouse} (h : start host clock c = .ok g) : ∃ policies stores,
      Stores.ofSettings host.folder c.store = .ok stores ∧
      g.pipeline = Pipeline.start (wiring host clock c) policies (.ofList c.users)
        stores.authorised stores.offsets c.workerTimeout := by
  simp only [start, bind, Except.bind, pure, Except.pure] at h
  split at h
  · cases h
  · split at h
    · cases h
    · split at h
      · cases h
      · next hopen =>
        cases h
        exact ⟨_, _, hopen, rfl⟩

open Pipeline

/-- A worker of a gatehouse starts at a time if the clock has room for the time-out then, and dies
otherwise. A write aborts exactly if the offsets expire and the clock has no room for the life of
the record. As long as there is room for the settings of the configuration, no worker dies, nobody
is told that a worker is lost, and neither stage dies. -/
theorem clock_suffices {host : Host} {clock : Timestamp} {c : AppConfig} {g : Gatehouse}
    (hg : Gatehouse.start host clock c = .ok g) :
    (∀ (now : Instant) (w : Worker), w.phase = .spawned → w.start now c.workerTimeout =
      if now.HasRoom c.workerTimeout
        then some ({ w with phase := .reading (now.plus c.workerTimeout) }, [])
        else w.crash) ∧
    ∀ p, Undisturbed g.pipeline p →
      p.coordinator.timeout = c.workerTimeout ∧
      (∀ now key a requested, p.authorised.put AuthorisedRequest.recordType now key a requested ≠
        .error .clockOverflow) ∧
      (∀ now key o requested, p.offsets.put TokenOffset.recordType now key o requested =
          .error .clockOverflow ↔
        c.store.profile = .ttl ∧ ¬ now.HasRoom (Store.lifetime c.store.offsetTtl requested)) ∧
      (c.HasRoom p.now → p.coordinator.Unharmed ∧
        (∀ answer ∈ p.coordinator.answers, ∀ token, answer.2 ≠ .error (.workerLost token)) ∧
        p.StagesLive) := by
  obtain ⟨policies, stores, hopen, hpipeline⟩ := Gatehouse.pipeline_of_start hg
  obtain ⟨hauthorised, hoffsets⟩ := Stores.life?_of_ofSettings hopen
  refine ⟨fun now w hp => ?_, fun p h => ?_⟩
  · split
    · next hroom => exact Worker.start_of_hasRoom hp hroom
    · next hroom => exact Worker.start_of_not_hasRoom hp hroom
  · rw [hpipeline] at h
    obtain ⟨hlifeA, hlifeO, htimeout⟩ := h.lives
    replace hauthorised : p.authorised.life? = none := hlifeA.trans hauthorised
    replace hoffsets := hlifeO.trans hoffsets
    refine ⟨htimeout, fun now key a requested hput => ?_, fun now key o requested => ?_,
      fun hroom => ?_⟩
    · obtain ⟨ttl, hlife, -⟩ := Store.put_eq_clockOverflow_iff.1 hput
      rw [hauthorised] at hlife
      cases hlife
    · rw [Store.put_eq_clockOverflow_iff, hoffsets]
      split <;> simp [*]
    · have hroom' : p.HasRoom p.now := by
        refine ⟨htimeout ▸ hroom.timeout, fun ttl hlife => ?_, fun ttl hlife => ?_⟩
        · rw [hauthorised] at hlife
          cases hlife
        · rw [hoffsets] at hlife
          split at hlife
          · next hp =>
            cases hlife
            exact hroom.offsetTtl hp
          · cases hlife
      obtain ⟨hrun, hlive⟩ := h.unharmed (stagesLive_start ..) hroom'
      have hunlost := hrun.unlost (Coordinator.mapping_new _) (Coordinator.placement_new _)
        ⟨nofun, nofun⟩
      exact ⟨hrun.unharmed nofun, hunlost.answers, hlive⟩

theorem Pipeline.Undisturbed.exists_of_foldlM {p₀ p : Pipeline} {α : Type} {l : List Event}
    {f : Pipeline → α} {a : α} (h : Undisturbed p₀ p)
    (hl : ∀ e ∈ l, ∀ place, e ≠ .workerCrash place)
    (hs : (List.foldlM Pipeline.step p l).map f = some a) : ∃ q, Undisturbed p₀ q ∧ f q = a :=
  ListUpdate.exists_of_foldlM h hs fun _ e he _ h hp => h.step (hl e he) hp

/-- Settings with a time-out that just fits the clock at its start. -/
def longestSettings : AppConfig :=
  { durableSettings with workerTimeoutSetting := some (.ofSeconds Instant.maxSeconds) }

/-- A worker that starts with the clock waits until its end; a second later it would die. -/
theorem clock_suffices_at_start : ∃ (g : Gatehouse) (p : Pipeline),
    Gatehouse.start bareHost default longestSettings = .ok g ∧ Undisturbed g.pipeline p ∧
    p.coordinator.workers.map Worker.phase = [.reading ⟨Instant.maxSeconds * 1000000000⟩] ∧
    p.coordinator.Unharmed ∧ p.StagesLive ∧
    ∀ w : Worker, w.phase = .spawned → w.start ⟨1000000000⟩ longestSettings.workerTimeout =
      w.crash := by
  obtain ⟨g, hg, hpipeline⟩ : ∃ g, Gatehouse.start bareHost default longestSettings = .ok g ∧
      g.pipeline = start (Gatehouse.wiring bareHost default longestSettings) (.new .builtins)
        (.ofList []) (.memory .empty) (.memory .empty) longestSettings.workerTimeout :=
    ⟨_, rfl, rfl⟩
  obtain ⟨hstart, hrun⟩ := clock_suffices hg
  have h : Undisturbed g.pipeline g.pipeline := .start
  obtain ⟨p, hp, hf⟩ := h.exists_of_foldlM (l := [.ask ⟨"t"⟩, .workerStart 0])
    (f := fun p => (p.coordinator.workers.map Worker.phase, p.now))
    (a := ([.reading ⟨Instant.maxSeconds * 1000000000⟩], ⟨0⟩))
    (by simp) (by rw [hpipeline]; rfl)
  obtain ⟨hphases, hnow⟩ := Prod.mk.inj hf
  have hroom : longestSettings.HasRoom p.now := by
    rw [hnow]
    exact ⟨by decide, nofun⟩
  obtain ⟨-, -, -, hharmless⟩ := hrun p hp
  obtain ⟨hunharmed, -, hlive⟩ := hharmless hroom
  refine ⟨g, p, hg, hp, hphases, hunharmed, hlive, fun w hw => ?_⟩
  rw [hstart ⟨1000000000⟩ w hw, if_neg (by decide)]

/-- A configuration whose offsets live for as long as a configuration can say. -/
def endlessConfig : AppConfig := { store := { offsetTtl := .ofSeconds Duration.maxCount } }

/-- How a stage has ended. -/
def Consumer.ending? {ω : Type} (stage : Consumer ω) : Option ConsumerEnd :=
  match stage.state with
  | .over ending => some ending
  | _ => none

theorem not_hasRoom_endless (now : Instant) : ¬ now.HasRoom (.ofSeconds Duration.maxCount) := by
  simp only [Instant.HasRoom, Duration.ofSeconds, Duration.maxCount, Instant.maxSeconds]
  omega

/-- A document is accepted for whose settings the clock never has room: the first worker of the
gatehouse dies, and so does the offset stage of its first entry. -/
theorem accepted_without_room :
    Json.decode? (AppConfig.decode Json.Form.reader)
      "\x7b\"persistence\": \x7b\"offset_ttl\": \"18446744073709551615s\"\x7d\x7d" =
        some endlessConfig ∧ endlessConfig.validate = .ok () ∧
    (∀ now : Instant, ¬ now.HasRoom endlessConfig.workerTimeout ∧
      ¬ now.HasRoom (Store.lifetime endlessConfig.store.offsetTtl none)) ∧
    ∃ g p, Gatehouse.start bareHost default endlessConfig = .ok g ∧ Undisturbed g.pipeline p ∧
      p.coordinator.answers.map Prod.snd = [.error (.workerLost ⟨"t"⟩)] ∧
      p.index.bind Consumer.ending? = some .crashed := by
  refine ⟨by decide +kernel, rfl, fun now => ⟨not_hasRoom_endless now, not_hasRoom_endless now⟩, ?_⟩
  obtain ⟨g, hg, hpipeline⟩ : ∃ g, Gatehouse.start bareHost default endlessConfig = .ok g ∧
      g.pipeline = start (Gatehouse.wiring bareHost default endlessConfig) (.new .builtins)
        (.ofList []) (.memory .empty) (.timed {
          cache := .new endlessConfig.store.offsetTtl
          sweepers := [.new endlessConfig.store.offsetTtl .start] })
        endlessConfig.workerTimeout := ⟨_, rfl, rfl⟩
  have h : Undisturbed g.pipeline g.pipeline := .start
  obtain ⟨p, hp, hf⟩ := h.exists_of_foldlM
    (l := [.ask ⟨"t"⟩, .workerStart 0, .register ⟨"t"⟩ ⟨⟨"u"⟩, ⟨"file:/p"⟩, .empty⟩,
      .registration 0, .registration 0, .access none, .access none, .index none, .index none,
      .index none])
    (f := fun p => (p.coordinator.answers.map Prod.snd, p.index.bind Consumer.ending?))
    (a := ([.error (.workerLost ⟨"t"⟩)], some .crashed))
    (by simp) (by rw [hpipeline]; decide +kernel)
  obtain ⟨hanswers, hindex⟩ := Prod.mk.inj hf
  exact ⟨g, p, hg, hp, hanswers, hindex⟩

end PolicyGate

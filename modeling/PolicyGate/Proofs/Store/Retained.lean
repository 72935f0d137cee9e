import Mathlib.Algebra.Order.BigOperators.Group.List
import PolicyGate.Proofs.List.Update
import PolicyGate.Proofs.Store.Lifetime

/-!
How long a cache holds what nobody reads again. Letting the clock go on carries out every tick that
is due on the way (`isSettled_advance`), and a sweeper leaves nothing behind that expired a whole
period ago: its next tick lies at most one period behind the end of every entry (`Tended`). Main
statement: with a sweeper, an entry is held for less than one period beyond its life and no entry is
missing before (`retention_bounded`).
-/

namespace PolicyGate

open Store

namespace Sweeper

variable {w : Sweeper} {until_ : Instant}

/-- The sweeper has a tick to do, no later than a point in time. -/
def IsDue (w : Sweeper) (until_ : Instant) : Prop :=
  w.isFinished = false ∧ w.nextTick ≤ until_

theorem not_isDue_iff : ¬ w.IsDue until_ ↔ w.isFinished = true ∨ until_ < w.nextTick := by
  unfold IsDue
  rw [not_and_or, Bool.not_eq_false]
  exact or_congr_right Nat.not_le

theorem nanos_period_new (period : Duration) (now : Instant) :
    (new period now).period.nanos = max period.nanos minPeriod.nanos := by
  unfold new
  dsimp only
  split
  · next h => exact (Nat.max_eq_right h).symm
  · next h => exact (Nat.max_eq_left (Nat.le_of_not_le h)).symm

/-- The number of ticks that a sweeper has to do up to a point in time. -/
def ticks (w : Sweeper) (until_ : Instant) : Nat :=
  if w.isFinished = true ∨ until_ < w.nextTick then 0
  else (until_.nanos - w.nextTick.nanos) / w.period.nanos + 1

theorem ticks_eq_zero_iff : w.ticks until_ = 0 ↔ ¬ w.IsDue until_ := by
  rw [not_isDue_iff, ticks]
  split <;> simp_all

theorem ticks_of_isDue (h : w.IsDue until_) :
    w.ticks until_ = (until_.nanos - w.nextTick.nanos) / w.period.nanos + 1 := by
  rw [ticks, if_neg fun hn => not_isDue_iff.2 hn h]

theorem ticks_finished_lt (h : w.IsDue until_) :
    ({ w with isFinished := true } : Sweeper).ticks until_ < w.ticks until_ := by
  have hzero : ({ w with isFinished := true } : Sweeper).ticks until_ = 0 :=
    ticks_eq_zero_iff.2 fun hdue => nomatch hdue.1
  rw [hzero, ticks_of_isDue h]
  exact Nat.succ_pos _

/-- A tick leaves fewer ticks to do. -/
theorem ticks_next_lt (h : w.IsDue until_) (hp : 0 < w.period.nanos) :
    ({ w with nextTick := w.nextTick.plus w.period } : Sweeper).ticks until_ < w.ticks until_ := by
  rw [ticks_of_isDue h]
  by_cases hnext : ({ w with nextTick := w.nextTick.plus w.period } : Sweeper).IsDue until_
  · have hle : w.nextTick.nanos + w.period.nanos ≤ until_.nanos := hnext.2
    have hdiv := Nat.div_eq_sub_div hp (Nat.le_sub_of_add_le' hle)
    rw [ticks_of_isDue hnext, hdiv, Nat.sub_sub]
    exact Nat.lt_succ_self _
  · rw [ticks_eq_zero_iff.2 hnext]
    exact Nat.succ_pos _

end Sweeper

namespace SweptCache

variable {s : SweptCache} {now t until_ : Instant} {place : Nat}

/-! ## Settling -/

/-- No sweeper has a tick to do. -/
def IsSettled (s : SweptCache) (now : Instant) : Prop := ∀ w ∈ s.sweepers, ¬ w.IsDue now

/-- No sweeper has missed a tick. -/
def IsOnTime (s : SweptCache) (now : Instant) : Prop :=
  ∀ w ∈ s.sweepers, w.isFinished = true ∨ now ≤ w.nextTick

/-- The earlier of the best tick so far and the one of a sweeper. -/
def earlier (until_ : Instant) (best : Option (Nat × Instant)) (entry : Sweeper × Nat) :
    Option (Nat × Instant) :=
  if entry.1.isFinished ∨ until_ < entry.1.nextTick then best
  else match best with
    | some (_, tick) =>
      if entry.1.nextTick < tick then some (entry.2, entry.1.nextTick) else best
    | none => some (entry.2, entry.1.nextTick)

theorem nextTick?_eq : s.nextTick? until_ = s.sweepers.zipIdx.foldl (earlier until_) none := rfl

theorem mem_earlier {best : Option (Nat × Instant)} {entry : Sweeper × Nat} {p : Nat × Instant}
    (h : p ∈ earlier until_ best entry) :
    p ∈ best ∨ entry.1.IsDue until_ ∧ p = (entry.2, entry.1.nextTick) := by
  unfold earlier at h
  split at h
  · exact .inl h
  · next hdue =>
    have hdue : entry.1.IsDue until_ := by_contra fun hn => hdue (Sweeper.not_isDue_iff.1 hn)
    split at h
    · split at h
      · exact .inr ⟨hdue, (Option.some.inj h).symm⟩
      · exact .inl h
    · exact .inr ⟨hdue, (Option.some.inj h).symm⟩

theorem earlier_eq_none {best : Option (Nat × Instant)} {entry : Sweeper × Nat}
    (h : earlier until_ best entry = none) : best = none ∧ ¬ entry.1.IsDue until_ := by
  unfold earlier at h
  split at h
  · next hdue => exact ⟨h, Sweeper.not_isDue_iff.2 hdue⟩
  · split at h
    · split at h <;> cases h
    · cases h

/-- The next tick is that of a sweeper which is due. -/
theorem exists_of_nextTick? (h : s.nextTick? until_ = some (place, t)) :
    ∃ w, s.sweepers[place]? = some w ∧ w.IsDue until_ ∧ w.nextTick = t := by
  rw [nextTick?_eq] at h
  refine List.foldlRecOn s.sweepers.zipIdx (earlier until_)
    (motive := fun best => ∀ p ∈ best, ∃ w, s.sweepers[p.1]? = some w ∧ w.IsDue until_ ∧
      w.nextTick = p.2) nofun ?_ (place, t) h
  intro best hbest entry hentry p hp
  rcases mem_earlier hp with hp | ⟨hdue, rfl⟩
  · exact hbest p hp
  · exact ⟨entry.1, List.mem_zipIdx_iff_getElem?.1 hentry, hdue, rfl⟩

theorem isSettled_of_nextTick? (h : s.nextTick? until_ = none) : s.IsSettled until_ := by
  suffices ∀ (entries : List (Sweeper × Nat)) (best : Option (Nat × Instant)),
      entries.foldl (earlier until_) best = none →
        best = none ∧ ∀ entry ∈ entries, ¬ entry.1.IsDue until_ by
    intro w hw
    obtain ⟨place, hplace⟩ := List.mem_iff_getElem?.1 hw
    exact (this _ none h).2 (w, place) (List.mem_zipIdx_iff_getElem?.2 hplace)
  intro entries
  induction entries with
  | nil => exact fun best hbest => ⟨hbest, nofun⟩
  | cons entry rest ih =>
    intro best hfold
    obtain ⟨hstep, hrest⟩ := ih _ hfold
    obtain ⟨hbest, hentry⟩ := earlier_eq_none hstep
    exact ⟨hbest, List.forall_mem_cons.2 ⟨hentry, hrest⟩⟩

/-- The number of ticks to do up to a point in time. -/
def ticks (s : SweptCache) (until_ : Instant) : Nat :=
  (s.sweepers.map fun w => w.ticks until_).sum

/-- Every sweeper waits for the shortest period at least. -/
def IsPaced (s : SweptCache) : Prop :=
  ∀ w ∈ s.sweepers, Sweeper.minPeriod.nanos ≤ w.period.nanos

/-- What a tick makes of the sweeper at its place. -/
def ticked (s : SweptCache) (t : Instant) (w : Sweeper) : Sweeper :=
  if s.isHeld then { w with nextTick := t.plus w.period } else { w with isFinished := true }

theorem sweepers_tick : (s.tick place t).sweepers = s.sweepers.modify place (s.ticked t) := by
  unfold tick ticked
  cases s.isHeld <;> rfl

theorem period_ticked (w : Sweeper) : (s.ticked t w).period = w.period := by
  unfold ticked
  split <;> rfl

theorem periods_tick :
    (s.tick place t).sweepers.map (·.period) = s.sweepers.map (·.period) := by
  rw [sweepers_tick]
  apply List.ext_getElem?
  intro i
  simp only [List.getElem?_map, List.getElem?_modify]
  cases s.sweepers[i]? with
  | none => rfl
  | some w =>
    by_cases hi : place = i
    · simp [hi, period_ticked]
    · simp [hi]

theorem isPaced_iff : s.IsPaced ↔
    ∀ p ∈ s.sweepers.map (·.period), Sweeper.minPeriod.nanos ≤ p.nanos := by
  simp [IsPaced]

theorem IsPaced.tick (h : s.IsPaced) : (s.tick place t).IsPaced := by
  rw [isPaced_iff, periods_tick]
  exact isPaced_iff.1 h

theorem ticks_tick_lt (hp : s.IsPaced) (h : s.nextTick? until_ = some (place, t)) :
    (s.tick place t).ticks until_ < s.ticks until_ := by
  obtain ⟨w, hw, hdue, rfl⟩ := exists_of_nextTick? h
  have hpos : 0 < w.period.nanos :=
    Nat.lt_of_lt_of_le (by decide) (hp w (List.mem_of_getElem? hw))
  have hset : (s.tick place w.nextTick).sweepers =
      s.sweepers.set place (s.ticked w.nextTick w) := by
    rw [sweepers_tick, List.modify_eq_set_getElem?, hw]
    rfl
  rw [ticks, hset]
  apply ListUpdate.sum_map_set_lt hw
  unfold ticked
  split
  · exact Sweeper.ticks_next_lt hdue hpos
  · exact Sweeper.ticks_finished_lt hdue

/-- Enough ticks settle all sweepers. -/
theorem isSettled_runUntil {fuel : Nat} (hp : s.IsPaced) (h : s.ticks until_ ≤ fuel) :
    (runUntil until_ fuel s).IsSettled until_ := by
  induction fuel generalizing s with
  | zero =>
    intro w hw
    apply Sweeper.ticks_eq_zero_iff.1
    have hle : w.ticks until_ ≤ s.ticks until_ :=
      List.single_le_sum (fun _ _ => Nat.zero_le _) _ (List.mem_map_of_mem hw)
    omega
  | succ fuel ih =>
    rw [runUntil]
    split
    · next place t hnext =>
      have hlt := ticks_tick_lt hp hnext
      exact ih hp.tick (by omega)
    · next hnext => exact isSettled_of_nextTick? hnext

theorem ticks_le_tickBound {elapsed : Duration} (hp : s.IsPaced) (h : s.IsOnTime now) :
    s.ticks (now.plus elapsed) ≤ s.tickBound elapsed := by
  have hticks : ∀ n ∈ s.sweepers.map (fun w => w.ticks (now.plus elapsed)),
      n ≤ elapsed.millis / 10 + 2 := by
    intro n hn
    obtain ⟨w, hw, rfl⟩ := List.mem_map.1 hn
    by_cases hdue : w.IsDue (now.plus elapsed)
    · rw [Sweeper.ticks_of_isDue hdue]
      have hnow : now.nanos ≤ w.nextTick.nanos :=
        (h w hw).resolve_left fun hf => by simp [hdue.1] at hf
      have hmillis : elapsed.nanos / 10000000 = elapsed.millis / 10 :=
        (Nat.div_div_eq_div_mul elapsed.nanos 1000000 10).symm
      have hdiv : ((now.plus elapsed).nanos - w.nextTick.nanos) / w.period.nanos ≤
          elapsed.nanos / 10000000 := by
        apply Nat.div_le_div _ (hp w hw) (by decide)
        simp only [Instant.plus]
        omega
      omega
    · rw [Sweeper.ticks_eq_zero_iff.2 hdue]
      exact Nat.zero_le _
  have hsum := List.sum_le_card_nsmul _ _ hticks
  rw [List.length_map, Nat.nsmul_eq_mul, Nat.mul_comm] at hsum
  exact Nat.le_succ_of_le hsum

/-- When the clock goes on, every tick on the way is done. -/
theorem isSettled_advance (hp : s.IsPaced) (h : s.IsOnTime now) (elapsed : Duration) :
    (s.advance now elapsed).IsSettled (now.plus elapsed) :=
  isSettled_runUntil hp (ticks_le_tickBound hp h)

end SweptCache

/-! ## What a sweeper leaves -/

/-- The next tick of a sweeper lies at most one period behind now and, unless it is due, at most one
period behind the end of every entry. -/
structure Sweeper.Guards (w : Sweeper) (c : TimedCache) (now : Instant) : Prop where
  running : w.isFinished = false
  soon : w.nextTick.nanos ≤ now.nanos + w.period.nanos
  reaches : ∀ key e, c.entries.get? key = some e →
    w.nextTick ≤ now ∨ w.nextTick.nanos ≤ e.expiresAt.nanos + w.period.nanos

namespace Sweeper.Guards

variable {w : Sweeper} {c c' : TimedCache} {t now : Instant}

theorem later (H : w.Guards c t) (h : t ≤ now) : w.Guards c now where
  running := H.running
  soon := Nat.le_trans H.soon (Nat.add_le_add_right h _)
  reaches key e he := (H.reaches key e he).imp_left fun hdue => Nat.le_trans hdue h

theorem within (H : w.Guards c now) (h : c'.Within c) : w.Guards c' now where
  running := H.running
  soon := H.soon
  reaches key e he := H.reaches key e (h key e he)

theorem new (period : Duration) (c : TimedCache) (now : Instant) :
    (Sweeper.new period now).Guards c now where
  running := rfl
  soon := Nat.le_add_right _ _
  reaches _ _ _ := .inl (Nat.le_refl now.nanos)

/-- A sweep leaves entries that live on, and the next one follows after a period. -/
theorem swept (H : w.Guards c now) (h : t ≤ now) :
    ({ w with nextTick := t.plus w.period } : Sweeper).Guards (c.purge t) now where
  running := H.running
  soon := Nat.add_le_add_right h _
  reaches key e he := by
    rw [TimedCache.get?_purge] at he
    have hlive : t.nanos < e.expiresAt.nanos :=
      of_decide_eq_true (Option.filter_eq_some_iff.1 he).2
    exact .inr (Nat.add_le_add_right (Nat.le_of_lt hlive) _)

/-- A call on the cache leaves it guarded. -/
theorem call {α : Type} {type : RecordType α} {x : Call α} (H : w.Guards c now)
    (h : c.call type now x = some c') : w.Guards c' now where
  running := H.running
  soon := H.soon
  reaches key e he := by
    cases x with
    | put key' record ttl =>
      rw [TimedCache.put_eq_some h, SortedMap.get?_insert] at he
      split at he
      · -- what is put lives from now on, so one period from now is soon enough
        cases he
        right
        refine Nat.le_trans H.soon (Nat.add_le_add_right ?_ _)
        exact Nat.le_add_right _ _
      · exact H.reaches key e he
    | get => cases h; exact H.reaches key e he
    | delete key' =>
      cases h
      rw [TimedCache.delete, SortedMap.get?_erase] at he
      split at he
      · cases he
      · exact H.reaches key e he

end Sweeper.Guards

namespace SweptCache

variable {s : SweptCache} {now t until_ : Instant} {place : Nat} {cache : TimedCache}

/-- A cache in use whose sweepers guard it. -/
structure Tended (s : SweptCache) (now : Instant) : Prop where
  isHeld : s.isHeld = true
  isPaced : s.IsPaced
  guards : ∀ w ∈ s.sweepers, w.Guards s.cache now

namespace Tended

theorem later (H : s.Tended t) (h : t ≤ now) : s.Tended now where
  isHeld := H.isHeld
  isPaced := H.isPaced
  guards w hw := (H.guards w hw).later h

theorem within (H : s.Tended now) (h : cache.Within s.cache) : { s with cache }.Tended now where
  isHeld := H.isHeld
  isPaced := H.isPaced
  guards w hw := (H.guards w hw).within h

theorem enlist (H : s.Tended now) (period : Duration) :
    { s with sweepers := s.sweepers ++ [Sweeper.new period now] }.Tended now where
  isHeld := H.isHeld
  isPaced := by
    intro w hw
    rcases List.mem_append.1 hw with hw | hw
    · exact H.isPaced w hw
    · rw [List.mem_singleton.1 hw, Sweeper.nanos_period_new]
      exact Nat.le_max_right _ _
  guards := by
    intro w hw
    rcases List.mem_append.1 hw with hw | hw
    · exact H.guards w hw
    · rw [List.mem_singleton.1 hw]
      exact .new period s.cache now

theorem tick (H : s.Tended now) (place : Nat) (h : t ≤ now) : (s.tick place t).Tended now where
  isHeld := by simp [SweptCache.tick, H.isHeld]
  isPaced := H.isPaced.tick
  guards := by
    have hcache : (s.tick place t).cache = s.cache.purge t := by simp [SweptCache.tick, H.isHeld]
    intro w' hw'
    obtain ⟨i, hi⟩ := List.mem_iff_getElem?.1 hw'
    rw [sweepers_tick, List.getElem?_modify] at hi
    obtain ⟨w, hw, rfl⟩ := Option.map_eq_some_iff.1 hi
    have hguards := H.guards w (List.mem_of_getElem? hw)
    rw [hcache]
    split
    · rw [ticked, if_pos H.isHeld]
      exact hguards.swept h
    · exact hguards.within (TimedCache.within_purge _ t)

theorem runUntil (H : s.Tended until_) (fuel : Nat) : (runUntil until_ fuel s).Tended until_ := by
  induction fuel generalizing s with
  | zero => exact H
  | succ fuel ih =>
    rw [SweptCache.runUntil]
    split
    · next place t hnext => exact ih (H.tick place (le_of_nextTick? hnext))
    · exact H

theorem advance (H : s.Tended now) (elapsed : Duration) :
    (s.advance now elapsed).Tended (now.plus elapsed) :=
  (H.later (Nat.le_add_right _ _)).runUntil _

theorem startSweeper (H : s.Tended now) (period : Duration) :
    (s.startSweeper period now).Tended now :=
  (H.enlist period).advance ⟨0⟩

/-- Between the ticks, no entry has been over for a whole period. -/
theorem lt_of_isSettled (H : s.Tended now) (h : s.IsSettled now) {w : Sweeper}
    (hw : w ∈ s.sweepers) {key : String} {e : TimedEntry} (he : s.cache.entries.get? key = some e) :
    now.nanos < e.expiresAt.nanos + w.period.nanos := by
  have hguards := H.guards w hw
  have hlate : ¬ w.nextTick ≤ now := fun hdue => h w hw ⟨hguards.running, hdue⟩
  have hreaches := (hguards.reaches key e he).resolve_left hlate
  exact Nat.lt_of_lt_of_le (Nat.lt_of_not_le hlate) hreaches

end Tended

theorem periods_runUntil (fuel : Nat) :
    (runUntil until_ fuel s).sweepers.map (·.period) = s.sweepers.map (·.period) := by
  induction fuel generalizing s with
  | zero => rfl
  | succ fuel ih =>
    rw [runUntil]
    split
    · exact ih.trans periods_tick
    · rfl

end SweptCache

/-! ## The cache in use with a sweeper -/

theorem TimedCache.Mirrors.get?_of_isLive {α : Type} {type : RecordType α} {c : TimedCache}
    {now : Instant} {held : String → Option (Dated α)} (H : c.Mirrors now type held) {key : String}
    {d : Dated α} (hd : held key = some d) (hl : d.isLive c.ttl now = true) :
    c.entries.get? (type.fullKey key) = some (d.entry type c.ttl) := by
  have hlive := H key
  rw [hd, Option.filter_some, if_pos hl, Option.map_some] at hlive
  exact (TimedCache.live?_eq_some_iff.1 hlive).1

namespace CacheUse

variable {u u' u₀ : CacheUse} {ttl period : Duration} {history calls : List (Instant × SharedCall)}

/-- Upkeep keeps a cache tended. -/
theorem Upkeep.tended (h : Upkeep u u') (H : u.swept.Tended u.now) : u'.swept.Tended u'.now := by
  cases h with
  | remove => exact H.within (TimedCache.within_dropExpired _ _ _)
  | purge => exact H.within (TimedCache.within_purge _ _)
  | purgeKey key => exact H.within (TimedCache.within_dropExpired _ _ key)
  | startSweeper period => exact H.startSweeper period
  | tick place => exact H.tick place (Nat.le_refl _)
  | wait => exact H.later (Nat.le_add_right _ _)
  | advance elapsed => exact H.advance elapsed

theorem tended_of_sharedCall {x : SharedCall} (h : u.sharedCall x = some u')
    (H : u.swept.Tended u.now) : u'.swept.Tended u'.now := by
  have hcall {α : Type} {type : RecordType α} {y : Call α} (hy : u.call type y = some u') :
      u'.swept.Tended u'.now := by
    obtain ⟨cache, hc, rfl⟩ := Option.map_eq_some_iff.1 hy
    exact ⟨H.isHeld, H.isPaced, fun w hw => (H.guards w hw).call hc⟩
  cases x with
  | inl y => exact hcall h
  | inr y => exact hcall h

theorem Used.tended (h : Used ttl history u) : u.swept.Tended u.now := by
  induction h with
  | start => exact ⟨rfl, nofun, nofun⟩
  | call _ hc ih => exact tended_of_sharedCall hc ih
  | upkeep _ hu ih => exact hu.tended ih

/-- Upkeep ends no sweeper and changes no period. -/
theorem Upkeep.periods_subset (h : Upkeep u u') :
    u.swept.sweepers.map (·.period) ⊆ u'.swept.sweepers.map (·.period) := by
  cases h with
  | remove | purge | purgeKey | wait => exact List.Subset.refl _
  | startSweeper period =>
    rw [SweptCache.startSweeper, SweptCache.advance, SweptCache.periods_runUntil, List.map_append]
    exact List.subset_append_left _ _
  | tick place => rw [SweptCache.periods_tick]; exact List.Subset.refl _
  | advance elapsed =>
    rw [SweptCache.advance, SweptCache.periods_runUntil]; exact List.Subset.refl _

theorem sweepers_of_sharedCall {x : SharedCall} (h : u.sharedCall x = some u') :
    u'.swept.sweepers = u.swept.sweepers := by
  cases x with
  | inl y => obtain ⟨cache, -, rfl⟩ := Option.map_eq_some_iff.1 h; rfl
  | inr y => obtain ⟨cache, -, rfl⟩ := Option.map_eq_some_iff.1 h; rfl

/-- The uses of a cache since a sweeper was started in the course of its use, with the calls since
then. The first tick of the sweeper may come after some of them. -/
inductive SweptSince (period : Duration) (u₀ : CacheUse) :
    List (Instant × SharedCall) → CacheUse → Prop
  | start : SweptSince period u₀ [] { u₀ with
      swept := { u₀.swept with sweepers := u₀.swept.sweepers ++ [Sweeper.new period u₀.now] } }
  | call {calls : List (Instant × SharedCall)} {u u' : CacheUse} {x : SharedCall} :
    SweptSince period u₀ calls u → u.sharedCall x = some u' →
    SweptSince period u₀ (calls ++ [(u.now, x)]) u'
  | upkeep {calls : List (Instant × SharedCall)} {u u' : CacheUse} :
    SweptSince period u₀ calls u → Upkeep u u' → SweptSince period u₀ calls u'

namespace SweptSince

theorem tended (h : SweptSince period u₀ calls u) (H : u₀.swept.Tended u₀.now) :
    u.swept.Tended u.now := by
  induction h with
  | start => exact H.enlist period
  | call _ hc ih => exact tended_of_sharedCall hc ih
  | upkeep _ hu ih => exact hu.tended ih

theorem mirrors (h : SweptSince period u₀ calls u) (H : Mirrors ttl history u₀) :
    Mirrors ttl (history ++ calls) u := by
  induction h with
  | start => rw [List.append_nil]; exact ⟨H.ttl, H.looked, H.offsets, H.authorised⟩
  | call _ hc ih => rw [← List.append_assoc]; exact ih.call hc
  | upkeep _ hu ih => exact ih.upkeep hu

theorem exists_sweeper (h : SweptSince period u₀ calls u) :
    ∃ w ∈ u.swept.sweepers, w.period = (Sweeper.new period u₀.now).period := by
  rw [← List.mem_map]
  induction h with
  | start => simp
  | call _ hc ih => rw [sweepers_of_sharedCall hc]; exact ih
  | upkeep _ hu ih => exact hu.periods_subset ih

end SweptSince

/-- Since a sweeper of some period was started, no entry has been held for the period, or for ten
milliseconds if that is more, beyond the end of its life whenever no tick is due; and what was put
last under a key and lives is held. No tick is due when the clock has gone on from a time for
which no tick was missed. -/
theorem retention_bounded (h₀ : Used ttl history u₀) (h : SweptSince period u₀ calls u) :
    (u.swept.IsSettled u.now → ∀ key e, u.swept.cache.entries.get? key = some e →
      u.now.nanos < e.expiresAt.nanos + max period.nanos (Duration.ofMillis 10).nanos) ∧
    (∀ key d, Call.latest key (datedCalls Sum.getLeft? (history ++ calls)) = some d →
      d.isLive ttl u.now → u.swept.cache.entries.get? (TokenOffset.recordType.fullKey key) =
        some (d.entry TokenOffset.recordType ttl)) ∧
    (∀ key d, Call.latest key (datedCalls Sum.getRight? (history ++ calls)) = some d →
      d.isLive ttl u.now → u.swept.cache.entries.get? (AuthorisedRequest.recordType.fullKey key) =
        some (d.entry AuthorisedRequest.recordType ttl)) ∧
    (u.swept.IsOnTime u.now → ∀ elapsed,
      (u.swept.advance u.now elapsed).IsSettled (u.now.plus elapsed)) := by
  have htended := h.tended h₀.tended
  obtain ⟨rfl, -, hoffsets, hauthorised⟩ := h.mirrors h₀.mirrors
  refine ⟨fun hsettled key e he => ?_, fun key d => hoffsets.get?_of_isLive,
    fun key d => hauthorised.get?_of_isLive, SweptCache.isSettled_advance htended.isPaced⟩
  obtain ⟨w, hw, hperiod⟩ := h.exists_sweeper
  have hlt := htended.lt_of_isSettled hsettled hw he
  rwa [hperiod, Sweeper.nanos_period_new] at hlt

/-- A record whose life ends on a tick is taken away by this tick; one that ends between two ticks
stays until the next one, which comes after ten milliseconds although seven were asked for. -/
theorem retention_bounded_between_ticks : ∃ u₀ u calls, Used (.ofMillis 30) [] u₀ ∧
    SweptSince (.ofMillis 7) u₀ calls u ∧ u.now = ⟨25000000⟩ ∧
    u.swept.cache.entries.get? (TokenOffset.recordType.fullKey "ended") = none ∧
    u.swept.cache.entries.get? (TokenOffset.recordType.fullKey "ending") =
      some (Dated.entry TokenOffset.recordType (.ofMillis 30)
        ⟨⟨⟨"t"⟩, 2⟩, ⟨0⟩, some (.ofMillis 22)⟩) ∧
    ∀ key e, u.swept.cache.entries.get? key = some e →
      25000000 < e.expiresAt.nanos + 10000000 := by
  have hused : Used (.ofMillis 30) [] _ := .start ⟨0⟩
  have hstart : SweptSince (.ofMillis 7) ⟨{ cache := .new (.ofMillis 30) }, ⟨0⟩, []⟩ _ _ := .start
  have hended := hstart.call (x := .inl (.put "ended" ⟨⟨"t"⟩, 1⟩ (some (.ofMillis 20)))) rfl
  have hending := hended.call (x := .inl (.put "ending" ⟨⟨"t"⟩, 2⟩ (some (.ofMillis 22)))) rfl
  have hlater := hending.upkeep (.advance (.ofMillis 25))
  have hsettled := (retention_bounded hused hending).2.2.2 (by
    intro w hw
    rw [List.mem_singleton.1 hw]
    exact .inr (Nat.le_refl 0)) (.ofMillis 25)
  refine ⟨_, _, _, hused, hlater, rfl, ?_, ?_, (retention_bounded hused hlater).1 hsettled⟩
  · rfl
  · rfl

end CacheUse

end PolicyGate

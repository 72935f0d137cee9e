import PolicyGate.Proofs.Store.Kept

/-!
What is taken away from a cache for its age. Main statements: a look-up depends on the live entry
under its key alone (`get_eq`), and removals, purges and sweeps leave every live entry where it is,
also those that act on a time that has gone by since (`Sheds.later`).
-/

namespace PolicyGate

theorem TimedEntry.isLive_earlier {e : TimedEntry} {t now : Instant} (h : t ≤ now)
    (hl : e.isLive now) : e.isLive t := by
  have hle : t.nanos ≤ now.nanos := h
  have hlt : now.nanos < e.expiresAt.nanos := of_decide_eq_true hl
  apply decide_eq_true
  exact Nat.lt_of_le_of_lt hle hlt

namespace TimedCache

variable {α : Type} {c c' c'' : TimedCache} {t now : Instant} {key : String}

/-- The entry under a key, unless it has expired. -/
def live? (c : TimedCache) (now : Instant) (key : String) : Option TimedEntry :=
  (c.entries.get? key).filter fun e => e.isLive now

theorem live?_eq_some_iff {e : TimedEntry} :
    c.live? now key = some e ↔ c.entries.get? key = some e ∧ e.isLive now :=
  Option.filter_eq_some_iff

theorem filter_live? (h : t ≤ now) (key : String) :
    (c.live? t key).filter (fun e => e.isLive now) = c.live? now key := by
  unfold live?
  rw [Option.filter_filter]
  congr 1
  funext e
  cases hl : e.isLive now with
  | false => exact Bool.and_false _
  | true => rw [TimedEntry.isLive_earlier h hl, Bool.and_true]

/-- A look-up answers the live entry under its key. -/
theorem get_eq (c : TimedCache) (type : RecordType α) (now : Instant) (key : String) :
    (c.get type now key).1 = match c.live? now (type.fullKey key) with
      | some e => (type.ofFields e.fields).map some
      | none => .ok none := by
  simp only [get, find, live?]
  cases c.entries.get? (type.fullKey key) with
  | none => rfl
  | some e => cases hl : e.isLive now <;> simp [Option.filter, hl, answer]

/-- Nothing but expired entries is missing. -/
structure Sheds (now : Instant) (c c' : TimedCache) : Prop where
  ttl : c'.ttl = c.ttl
  within : c'.Within c
  live : ∀ key e, c.entries.get? key = some e → e.isLive now → c'.entries.get? key = some e

theorem Sheds.refl (now : Instant) (c : TimedCache) : c.Sheds now c where
  ttl := rfl
  within := .refl c
  live _ _ h _ := h

theorem Sheds.trans (h : c.Sheds now c') (h' : c'.Sheds now c'') : c.Sheds now c'' where
  ttl := h'.ttl.trans h.ttl
  within := h'.within.trans h.within
  live key e he hl := h'.live key e (h.live key e he hl) hl

theorem Sheds.later (h : c.Sheds t c') (ht : t ≤ now) : c.Sheds now c' where
  ttl := h.ttl
  within := h.within
  live key e he hl := h.live key e he (TimedEntry.isLive_earlier ht hl)

/-- Expired entries may be missing: no look-up tells the difference. -/
theorem Sheds.live?_eq (h : c.Sheds now c') (key : String) :
    c'.live? now key = c.live? now key := by
  apply Option.ext
  intro e
  rw [live?_eq_some_iff, live?_eq_some_iff]
  constructor
  · rintro ⟨he, hl⟩
    exact ⟨h.within key e he, hl⟩
  · rintro ⟨he, hl⟩
    exact ⟨h.live key e he hl, hl⟩

theorem sheds_dropExpired (c : TimedCache) (now : Instant) (key : String) :
    c.Sheds now (c.dropExpired now key) where
  ttl := by
    unfold dropExpired
    split
    · split <;> rfl
    · rfl
  within := within_dropExpired c now key
  live key' e he hl := by
    rw [get?_dropExpired, he]
    split
    · exact Option.filter_eq_some_iff.2 ⟨rfl, hl⟩
    · rfl

theorem sheds_purge (c : TimedCache) (now : Instant) : c.Sheds now (c.purge now) where
  ttl := rfl
  within := within_purge c now
  live key e he hl := by
    rw [get?_purge, he]
    exact Option.filter_eq_some_iff.2 ⟨rfl, hl⟩

end TimedCache

namespace SweptCache

variable {s : SweptCache} {now until_ : Instant}

/-- The next tick comes no later than the time up to which it is looked for. -/
theorem le_of_nextTick? {place : Nat} (h : s.nextTick? until_ = some (place, now)) :
    now ≤ until_ := by
  unfold nextTick? at h
  generalize s.sweepers.zipIdx = sweepers at h
  -- the bound is kept by the best tick that has been found so far
  suffices ∀ best : Option (Nat × Instant), (∀ p ∈ best, p.2 ≤ until_) →
      ∀ p ∈ sweepers.foldl _ best, p.2 ≤ until_ from this none nofun _ h
  clear h
  induction sweepers with
  | nil => exact fun _ hbest => hbest
  | cons entry rest ih =>
    obtain ⟨sweeper, place⟩ := entry
    intro best hbest
    rw [List.foldl_cons]
    apply ih
    dsimp only
    split
    · exact hbest
    · next hdue =>
      have hle : sweeper.nextTick ≤ until_ := Nat.le_of_not_lt fun hlt => hdue (.inr hlt)
      split
      · split
        · rintro _ ⟨⟩
          exact hle
        · exact hbest
      · rintro _ ⟨⟩
        exact hle

theorem sheds_tick (s : SweptCache) (place : Nat) (now : Instant) :
    s.cache.Sheds now (s.tick place now).cache := by
  unfold tick
  split
  · exact s.cache.sheds_purge now
  · exact .refl now s.cache

/-- Sweepers take nothing but expired entries. -/
theorem sheds_runUntil (until_ : Instant) (fuel : Nat) (s : SweptCache) :
    s.cache.Sheds until_ (runUntil until_ fuel s).cache := by
  induction fuel generalizing s with
  | zero => exact .refl until_ s.cache
  | succ fuel ih =>
    rw [runUntil]
    split
    · next place now hnext =>
      have htick := (s.sheds_tick place now).later (le_of_nextTick? hnext)
      exact htick.trans (ih (s.tick place now))
    · exact .refl until_ s.cache

theorem sheds_advance (s : SweptCache) (now : Instant) (elapsed : Duration) :
    s.cache.Sheds (now.plus elapsed) (s.advance now elapsed).cache :=
  sheds_runUntil _ _ s

theorem sheds_startSweeper (s : SweptCache) (period : Duration) (now : Instant) :
    s.cache.Sheds now (s.startSweeper period now).cache :=
  sheds_advance { s with sweepers := s.sweepers ++ [.new period now] } now ⟨0⟩

end SweptCache

end PolicyGate

import PolicyGate.Proofs.Store.Expiry
import PolicyGate.Proofs.Store.Remembered

/-!
A cache in use: records of both kinds are put, looked up and deleted, a look-up that finds an
expired entry takes it away in a later step of its own, and purges and sweeps come in between. Main
statement: a look-up answers the record of the last write under its key exactly if no deletion came
after it and its life is not over, whatever was taken away before (`cache_remembers`).
-/

namespace PolicyGate

open Store

theorem TokenOffset.ofFields_of_isInt64 {o : TokenOffset} (h : o.IsInt64) :
    recordType.ofFields (recordType.toFields o) = .ok o := by
  have hget (name : String) : o.toFields.get? name = SortedMap.lookup name
      [("token", o.token.text), ("offset", String.ofList (Json.renderInt o.offset))] :=
    SortedMap.get?_ofList (by simp)
  have htoken : o.toFields.field "token" = .ok o.token.text := by
    rw [FlatFields.field, hget]; rfl
  have hoffset : o.toFields.field "offset" = .ok (String.ofList (Json.renderInt o.offset)) := by
    rw [FlatFields.field, hget]; rfl
  have hparse : Int64Text.parse (String.ofList (Json.renderInt o.offset)) = .ok o.offset := by
    rw [Int64Text.parse_renderInt, if_neg (Int.not_lt.2 h.1), if_neg (Int.not_lt.2 h.2)]
  simp only [recordType, ofFields, htoken, hoffset, hparse, bind, Except.bind, pure, Except.pure]

/-! ## Records with a life -/

/-- A record with the time at which it was put and the time to live that was asked for. -/
structure Dated (α : Type) where
  record : α
  putAt : Instant
  requested : Option Duration

namespace Dated

variable {α : Type}

/-- How long the record lives: as long as was asked for, but no longer than the cache allows. -/
def lifetime (ttl : Duration) (d : Dated α) : Nat :=
  match d.requested with
  | some asked => min asked.nanos ttl.nanos
  | none => ttl.nanos

/-- Whether the life of the record is not yet over. -/
def isLive (ttl : Duration) (now : Instant) (d : Dated α) : Bool :=
  now.nanos < d.putAt.nanos + d.lifetime ttl

/-- The entry of the record in a cache. -/
def entry (type : RecordType α) (ttl : Duration) (d : Dated α) : TimedEntry :=
  ⟨type.toFields d.record, ⟨d.putAt.nanos + d.lifetime ttl⟩⟩

/-- The record of the last write under a key, unless a deletion followed or its life is over. -/
def alive? (ttl : Duration) (now : Instant) (key : String) (calls : List (Call (Dated α))) :
    Option α :=
  ((Call.latest key calls).filter (isLive ttl now)).map record

end Dated

/-- The call as it is remembered: a record that is put gets the time. -/
def Store.Call.dated {α : Type} (now : Instant) : Call α → Call (Dated α)
  | put key record ttl => put key ⟨record, now, ttl⟩ ttl
  | get key => get key
  | delete key => delete key

namespace TimedCache

variable {α β : Type} {type : RecordType α} {other : RecordType β} {c c' : TimedCache}
  {t now : Instant} {held : String → Option (Dated α)}

theorem nanos_effectiveTtl (c : TimedCache) (d : Dated α) :
    (c.effectiveTtl d.requested).nanos = d.lifetime c.ttl := by
  unfold effectiveTtl Dated.lifetime
  cases d.requested with
  | none => rfl
  | some asked =>
    simp only
    split
    · next h => exact (Nat.min_eq_left h).symm
    · next h => exact (Nat.min_eq_right (Nat.le_of_not_le h)).symm

theorem put_eq_some {key : String} {record : α} {ttl : Option Duration}
    (h : c.put type now key record ttl = some c') :
    c' = { c with
      entries := c.entries.insert (type.fullKey key)
        (Dated.entry type c.ttl ⟨record, now, ttl⟩) } := by
  obtain ⟨expiresAt, hafter, rfl⟩ := Option.map_eq_some_iff.1 h
  obtain ⟨rfl, -⟩ := Instant.after?_eq_some_iff.1 hafter
  rw [Instant.plus, nanos_effectiveTtl c ⟨record, now, ttl⟩]
  rfl

/-- The live entries of one kind are those of the records that are held and live. -/
def Mirrors (c : TimedCache) (now : Instant) (type : RecordType α)
    (held : String → Option (Dated α)) : Prop :=
  ∀ key, c.live? now (type.fullKey key) =
    ((held key).filter (Dated.isLive c.ttl now)).map (Dated.entry type c.ttl)

theorem Mirrors.sheds (H : c.Mirrors now type held) (h : c.Sheds now c') :
    c'.Mirrors now type held := by
  intro key
  rw [h.live?_eq, h.ttl]
  exact H key

/-- Time brings nothing back. -/
theorem Mirrors.later (H : c.Mirrors t type held) (h : t ≤ now) : c.Mirrors now type held := by
  intro key
  rw [← filter_live? h, H key, Option.filter_map, Option.filter_filter]
  congr 2
  funext d
  have hentry : (d.entry type c.ttl).isLive now = d.isLive c.ttl now := rfl
  rw [Function.comp_apply, hentry]
  cases hl : d.isLive c.ttl now with
  | false => exact Bool.and_false _
  | true =>
    have hearlier : d.isLive c.ttl t = true :=
      TimedEntry.isLive_earlier (e := d.entry type c.ttl) h hl
    rw [hearlier, Bool.and_true]

/-- A look-up in a cache finds what was written last under the key, as long as it lives. -/
theorem Mirrors.get (H : c.Mirrors now type held) {key : String}
    (hf : ∀ d, held key = some d → type.ofFields (type.toFields d.record) = .ok d.record) :
    (c.get type now key).1 =
      .ok (((held key).filter (Dated.isLive c.ttl now)).map Dated.record) := by
  rw [get_eq, H key]
  cases hd : held key with
  | none => rfl
  | some d =>
    cases hl : d.isLive c.ttl now with
    | false => simp [Option.filter, hl]
    | true => simp [Option.filter, hl, Dated.entry, hf d hd, Except.map]

/-- What a call makes of a cache. A look-up leaves it as it is, and nothing comes of a write if the
clock cannot hold the end of its life. -/
def call (c : TimedCache) (type : RecordType α) (now : Instant) : Call α → Option TimedCache
  | .put key record ttl => c.put type now key record ttl
  | .get _ => some c
  | .delete key => some (c.delete type key)

theorem ttl_call {x : Call α} (h : c.call type now x = some c') : c'.ttl = c.ttl := by
  cases x with
  | put => rw [put_eq_some h]
  | get => cases h; rfl
  | delete => cases h; rfl

theorem Mirrors.call {x : Call α} (H : c.Mirrors now type held) (h : c.call type now x = some c') :
    c'.Mirrors now type fun key => (x.dated now).leave key (held key) := by
  intro key
  cases x with
  | put key' record ttl =>
    rw [put_eq_some h]
    simp only [live?, SortedMap.get?_insert, Call.dated, Call.leave]
    by_cases hk : key' = key
    · rw [if_pos (congrArg _ hk.symm), if_pos hk, Option.filter_some, Option.filter_some]
      cases hl : Dated.isLive c.ttl now ⟨record, now, ttl⟩ with
      | false =>
        have hentry : (Dated.entry type c.ttl ⟨record, now, ttl⟩).isLive now = false := hl
        rw [hentry]; rfl
      | true =>
        have hentry : (Dated.entry type c.ttl ⟨record, now, ttl⟩).isLive now = true := hl
        rw [hentry]; rfl
    · rw [if_neg fun h => hk (RecordType.fullKey_inj h).symm, if_neg hk]
      exact H key
  | get => cases h; exact H key
  | delete key' =>
    cases h
    simp only [live?, delete, SortedMap.get?_erase, Call.dated, Call.leave]
    by_cases hk : key' = key
    · rw [if_pos (congrArg _ hk.symm), if_pos hk]; rfl
    · rw [if_neg fun h => hk (RecordType.fullKey_inj h).symm, if_neg hk]
      exact H key

/-- Calls on the records of another kind are no matter. -/
theorem Mirrors.call_apart {x : Call β} (H : c.Mirrors now type held)
    (ha : ∀ key key', type.fullKey key ≠ other.fullKey key') (h : c.call other now x = some c') :
    c'.Mirrors now type held := by
  intro key
  cases x with
  | put =>
    rw [put_eq_some h]
    simp only [live?, SortedMap.get?_insert, if_neg (ha key _)]
    exact H key
  | get => cases h; exact H key
  | delete =>
    cases h
    simp only [live?, delete, SortedMap.get?_erase, if_neg (ha key _)]
    exact H key

end TimedCache

/-! ## The cache in use -/

/-- A cache at some time, with the removals that look-ups still owe it: the time at which they
looked and the key under which they found an expired entry. -/
structure CacheUse where
  swept : SweptCache
  now : Instant
  removals : List (Instant × String)

namespace CacheUse

variable {α : Type} {u u' : CacheUse}

/-- The removal that a call leaves to be done. -/
def owed (u : CacheUse) (type : RecordType α) : Call α → List (Instant × String)
  | .get key => match u.swept.cache.find u.now (type.fullKey key) with
    | .expired => [(u.now, type.fullKey key)]
    | _ => []
  | _ => []

/-- A call on the records of one kind. -/
def call (u : CacheUse) (type : RecordType α) (x : Call α) : Option CacheUse :=
  (u.swept.cache.call type u.now x).map fun cache =>
    { u with swept := { u.swept with cache }, removals := u.removals ++ u.owed type x }

/-- A call on the records of either kind. -/
def sharedCall (u : CacheUse) : SharedCall → Option CacheUse
  | .inl x => u.call TokenOffset.recordType x
  | .inr x => u.call AuthorisedRequest.recordType x

/-- What happens to a cache between the calls: an owed removal is done, all that has expired at some
time is purged, at once or key by key, a sweeper starts or ticks, be it in time or late, and time
passes, with or without the ticks that are due on the way. -/
inductive Upkeep (u : CacheUse) : CacheUse → Prop
  | remove {place looked key} : u.removals[place]? = some (looked, key) →
    Upkeep u { u with
      swept := { u.swept with cache := u.swept.cache.dropExpired looked key }
      removals := u.removals.eraseIdx place }
  | purge {looked : Instant} : looked ≤ u.now →
    Upkeep u { u with swept := { u.swept with cache := u.swept.cache.purge looked } }
  | purgeKey {looked : Instant} (key : String) : looked ≤ u.now →
    Upkeep u { u with swept := { u.swept with cache := u.swept.cache.dropExpired looked key } }
  | startSweeper (period : Duration) :
    Upkeep u { u with swept := u.swept.startSweeper period u.now }
  | tick (place : Nat) : Upkeep u { u with swept := u.swept.tick place u.now }
  | wait (elapsed : Duration) : Upkeep u { u with now := u.now.plus elapsed }
  | advance (elapsed : Duration) : Upkeep u { u with
      swept := u.swept.advance u.now elapsed
      now := u.now.plus elapsed }

/-- The uses of a cache that starts empty, with the calls so far and their times. -/
inductive Used (ttl : Duration) : List (Instant × SharedCall) → CacheUse → Prop
  | start (now : Instant) : Used ttl [] ⟨{ cache := .new ttl }, now, []⟩
  | call {history u u' x} : Used ttl history u → u.sharedCall x = some u' →
    Used ttl (history ++ [(u.now, x)]) u'
  | upkeep {history u u'} : Used ttl history u → Upkeep u u' → Used ttl history u'

/-- The calls on the records of one kind, with their times. -/
def datedCalls (pick : SharedCall → Option (Call α)) (history : List (Instant × SharedCall)) :
    List (Call (Dated α)) :=
  history.filterMap fun x => (pick x.2).map (Call.dated x.1)

theorem datedCalls_concat (pick : SharedCall → Option (Call α))
    (history : List (Instant × SharedCall)) (now : Instant) (x : SharedCall) :
    datedCalls pick (history ++ [(now, x)]) =
      datedCalls pick history ++ ((pick x).map (Call.dated now)).toList := by
  rw [datedCalls, List.filterMap_append]
  cases hx : (pick x).map (Call.dated now) <;> simp [datedCalls, hx]

/-- The cache mirrors the calls on both kinds, and removals look back. -/
structure Mirrors (ttl : Duration) (history : List (Instant × SharedCall)) (u : CacheUse) :
    Prop where
  ttl : u.swept.cache.ttl = ttl
  looked : ∀ r ∈ u.removals, r.1 ≤ u.now
  offsets : u.swept.cache.Mirrors u.now TokenOffset.recordType
    fun key => Call.latest key (datedCalls Sum.getLeft? history)
  authorised : u.swept.cache.Mirrors u.now AuthorisedRequest.recordType
    fun key => Call.latest key (datedCalls Sum.getRight? history)

theorem Upkeep.now_le (h : Upkeep u u') : u.now ≤ u'.now := by
  cases h with
  | remove | purge | purgeKey | startSweeper | tick => exact Nat.le_refl _
  | wait | advance => exact Nat.le_add_right _ _

theorem Upkeep.sheds (h : Upkeep u u') (hlooked : ∀ r ∈ u.removals, r.1 ≤ u.now) :
    u.swept.cache.Sheds u'.now u'.swept.cache := by
  cases h with
  | remove hr =>
    exact (u.swept.cache.sheds_dropExpired _ _).later (hlooked _ (List.mem_of_getElem? hr))
  | purge ht => exact (u.swept.cache.sheds_purge _).later ht
  | purgeKey key ht => exact (u.swept.cache.sheds_dropExpired _ key).later ht
  | startSweeper period => exact u.swept.sheds_startSweeper period u.now
  | tick place => exact u.swept.sheds_tick place u.now
  | wait => exact .refl _ _
  | advance elapsed => exact u.swept.sheds_advance u.now elapsed

theorem Upkeep.removals_subset (h : Upkeep u u') : u'.removals ⊆ u.removals := by
  cases h with
  | remove => exact List.eraseIdx_subset
  | purge | purgeKey | startSweeper | tick | wait | advance => exact List.Subset.refl _

theorem looked_owed {type : RecordType α} {x : Call α} : ∀ r ∈ u.owed type x, r.1 = u.now := by
  intro r hr
  cases x with
  | put | delete => cases hr
  | get =>
    simp only [owed] at hr
    split at hr
    · rw [List.mem_singleton.1 hr]
    · cases hr

namespace Mirrors

variable {ttl : Duration} {history : List (Instant × SharedCall)}

theorem upkeep (H : Mirrors ttl history u) (h : Upkeep u u') : Mirrors ttl history u' := by
  have hsheds := h.sheds H.looked
  constructor
  · exact hsheds.ttl.trans H.ttl
  · intro r hr
    exact Nat.le_trans (H.looked r (h.removals_subset hr)) h.now_le
  · exact (H.offsets.later h.now_le).sheds hsheds
  · exact (H.authorised.later h.now_le).sheds hsheds

/-- Calls on either kind keep the cache in agreement with their history. -/
theorem call {x : SharedCall} (H : Mirrors ttl history u) (h : u.sharedCall x = some u') :
    Mirrors ttl (history ++ [(u.now, x)]) u' := by
  have hlooked {α : Type} {type : RecordType α} {y : Call α} :
      ∀ r ∈ u.removals ++ u.owed type y, r.1 ≤ u.now := by
    intro r hr
    rcases List.mem_append.1 hr with hr | hr
    · exact H.looked r hr
    · exact Nat.le_of_eq (congrArg Instant.nanos (looked_owed r hr))
  cases x with
  | inl x =>
    obtain ⟨cache, hc, rfl⟩ := Option.map_eq_some_iff.1 h
    refine ⟨(TimedCache.ttl_call hc).trans H.ttl, hlooked, ?_, ?_⟩
    · simpa [datedCalls_concat, Call.latest_concat] using H.offsets.call hc
    · simpa [datedCalls_concat] using
        H.authorised.call_apart (fun key key' h => apart key' key h.symm) hc
  | inr x =>
    obtain ⟨cache, hc, rfl⟩ := Option.map_eq_some_iff.1 h
    refine ⟨(TimedCache.ttl_call hc).trans H.ttl, hlooked, ?_, ?_⟩
    · simpa [datedCalls_concat] using H.offsets.call_apart apart hc
    · simpa [datedCalls_concat, Call.latest_concat] using H.authorised.call hc

end Mirrors

theorem Used.mirrors {ttl : Duration} {history : List (Instant × SharedCall)}
    (h : Used ttl history u) : Mirrors ttl history u := by
  induction h with
  | start now => exact ⟨rfl, nofun, fun _ => rfl, fun _ => rfl⟩
  | call _ hc ih => exact ih.call hc
  | upkeep _ hu ih => exact ih.upkeep hu

theorem Used.get_offsets {ttl : Duration} {history : List (Instant × SharedCall)}
    (h : Used ttl history u)
    (hint : ∀ key d ttl', .put key d ttl' ∈ datedCalls Sum.getLeft? history → d.record.IsInt64)
    (key : String) : (u.swept.cache.get TokenOffset.recordType u.now key).1 =
      .ok (Dated.alive? ttl u.now key (datedCalls Sum.getLeft? history)) := by
  obtain ⟨rfl, -, ho, -⟩ := h.mirrors
  refine ho.get fun d hd => TokenOffset.ofFields_of_isInt64 ?_
  obtain ⟨before, ttl', after, hcalls, -⟩ := Call.latest_eq_some_iff.1 hd
  refine hint key d ttl' ?_
  rw [hcalls]
  exact List.mem_append_right _ List.mem_cons_self

theorem Used.get_authorised {ttl : Duration} {history : List (Instant × SharedCall)}
    (h : Used ttl history u) (key : String) :
    (u.swept.cache.get AuthorisedRequest.recordType u.now key).1 =
      .ok (Dated.alive? ttl u.now key (datedCalls Sum.getRight? history)) := by
  obtain ⟨rfl, -, -, ha⟩ := h.mirrors
  exact ha.get fun d _ => d.record.ofFields_toFields

/-- A cache is a map of token offsets and a map of authorisations in which each record has a life.
Nothing that is done to it between the calls takes away what still lives, so no answer depends on
it. -/
theorem cache_remembers {ttl : Duration} {history : List (Instant × SharedCall)}
    (h : Used ttl history u)
    (hint : ∀ key d ttl', .put key d ttl' ∈ datedCalls Sum.getLeft? history → d.record.IsInt64) :
    (∀ key, (u.swept.cache.get TokenOffset.recordType u.now key).1 =
      .ok (Dated.alive? ttl u.now key (datedCalls Sum.getLeft? history))) ∧
    (∀ key, (u.swept.cache.get AuthorisedRequest.recordType u.now key).1 =
      .ok (Dated.alive? ttl u.now key (datedCalls Sum.getRight? history))) ∧
    (∀ u', Upkeep u u' → u.swept.cache.Sheds u'.now u'.swept.cache) ∧
    ∀ v, Used ttl history v → v.now = u.now → ∀ key,
      (v.swept.cache.get TokenOffset.recordType v.now key).1 =
        (u.swept.cache.get TokenOffset.recordType u.now key).1 ∧
      (v.swept.cache.get AuthorisedRequest.recordType v.now key).1 =
        (u.swept.cache.get AuthorisedRequest.recordType u.now key).1 := by
  refine ⟨h.get_offsets hint, h.get_authorised, fun u' hu => hu.sheds h.mirrors.looked, ?_⟩
  intro v hv hnow key
  constructor
  · rw [hv.get_offsets hint, h.get_offsets hint, hnow]
  · rw [hv.get_authorised, h.get_authorised, hnow]

/-- A record is looked up at the end of its life and put anew. -/
def rewriting : List (Instant × SharedCall) :=
  [(⟨0⟩, .inl (.put "k" ⟨⟨"t"⟩, 1⟩ none)), (⟨5⟩, .inl (.get "k")),
    (⟨5⟩, .inl (.put "k" ⟨⟨"t"⟩, 2⟩ (some ⟨9⟩))),
    (⟨5⟩, .inr (.put "k" ⟨⟨"t"⟩, ⟨"r"⟩, .ofId ⟨"u"⟩, .empty, none⟩ (some ⟨2⟩)))]

/-- The look-up takes the record away only after the key was written anew, and what was written then
stays. -/
theorem cache_remembers_rewriting : ∃ u, Used ⟨5⟩ rewriting u ∧ u.removals = [] ∧ u.now = ⟨7⟩ ∧
    (u.swept.cache.get TokenOffset.recordType u.now "k").1 = .ok (some ⟨⟨"t"⟩, 2⟩) ∧
    (u.swept.cache.get AuthorisedRequest.recordType u.now "k").1 = .ok none := by
  have hused : ∃ u, Used ⟨5⟩ rewriting u ∧ u.removals = [] ∧ u.now = ⟨7⟩ := by
    have hstart : Used ⟨5⟩ [] _ := .start ⟨0⟩
    have hput := hstart.call (x := .inl (.put "k" ⟨⟨"t"⟩, 1⟩ none)) rfl
    have hlooked := (hput.upkeep (.wait ⟨5⟩)).call (x := .inl (.get "k")) rfl
    have hanew := hlooked.call (x := .inl (.put "k" ⟨⟨"t"⟩, 2⟩ (some ⟨9⟩))) rfl
    have hother := hanew.call
      (x := .inr (.put "k" ⟨⟨"t"⟩, ⟨"r"⟩, .ofId ⟨"u"⟩, .empty, none⟩ (some ⟨2⟩))) rfl
    have hremoved := hother.upkeep (@Upkeep.remove _ 0 _ _ rfl)
    exact ⟨_, hremoved.upkeep (.wait ⟨2⟩), rfl, rfl⟩
  obtain ⟨u, hu, hremovals, hnow⟩ := hused
  obtain ⟨ho, ha, -⟩ := cache_remembers hu (by
    intro key d ttl hput
    simp [rewriting, datedCalls, Call.dated] at hput
    rcases hput with ⟨-, rfl, -⟩ | ⟨-, rfl, -⟩ <;>
      simp [TokenOffset.IsInt64])
  refine ⟨u, hu, hremovals, hnow, ?_, ?_⟩
  · rw [ho, hnow]; rfl
  · rw [ha, hnow]; rfl

end CacheUse

end PolicyGate

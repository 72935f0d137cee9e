import PolicyGate.Proofs.Json.Formed
import PolicyGate.Store.Any

/-!
What a store keeps under a key, be it expired or not. Main statements: a write changes what is kept
under its own key and nothing else (`kept?_put_eq`), a store gives back only what was put under the
same key (`kept?_put`, `kept?_of_get`), and neither reading nor time bring anything in.
-/

namespace PolicyGate

/-- A record that is decoded from one of its own three forms is the record that was encoded. -/
structure RecordType.Faithful {α : Type} (type : RecordType α) : Prop where
  ofJson : ∀ r r', type.ofJson (type.toJson r).sorted = some r' → r' = r
  ofText : ∀ r r', type.ofText (type.toJson r).render = some r' → r' = r
  ofFields : ∀ r r', type.ofFields (type.toFields r) = .ok r' → r' = r

namespace TokenOffset

theorem sorted_toJson (o : TokenOffset) :
    o.toJson.sorted = .object [("offset", .int o.offset), ("token", .string o.token.text)] := by
  have hlt : "offset" < "token" := by decide
  simp only [toJson, Token.toJson, Json.int, Json.sorted, Json.sortedMembers, Json.ofMembers,
    SortedMap.ofList, List.foldl_cons, List.foldl_nil, SortedMap.insert, SortedMap.empty,
    SortedMap.insertEntry, SortedMap.toList, if_pos hlt]

theorem decode_of_fields {D : Type} {r : Wire.Reader Option D} {d token offset : D} {text : String}
    (h : r.fields ["token", "offset"] d = some ⟨[some token, some offset], false⟩)
    (ht : r.text token = some text) :
    decode r d = (r.int offset).map fun n => ⟨⟨text⟩, n⟩ := by
  cases hn : r.int offset <;>
    simp [decode, h, ht, hn, Wire.Fields.required, Wire.Fields.at?, Token.decode]

theorem decode_form_toJson (o : TokenOffset) :
    decode Json.Form.reader o.toJson.form =
      (Json.Form.reader.int (Json.form (.int o.offset))).map fun n => ⟨o.token, n⟩ := by
  have hf : Json.Form.reader.fields ["token", "offset"] o.toJson.form = some
      ⟨[some (Json.form (.string o.token.text)), some (Json.form (.int o.offset))], false⟩ := by
    rw [toJson, Json.Form.fields_form_object]
    simp [Wire.fieldsOfEntries, Token.toJson]
  exact decode_of_fields hf (Json.Form.text_form_string _)

theorem decode_sorted_toJson (o : TokenOffset) :
    decode Json.reader o.toJson.sorted =
      (Json.reader.int (.int o.offset)).map fun n => ⟨o.token, n⟩ := by
  have hf : Json.reader.fields ["token", "offset"] o.toJson.sorted =
      some ⟨[some (.string o.token.text), some (.int o.offset)], false⟩ := by
    simp [sorted_toJson, Json.reader, Json.members?, Wire.fieldsOfEntries]
  exact decode_of_fields hf rfl

theorem ofFields_toFields (o : TokenOffset) {o' : TokenOffset}
    (h : ofFields o.toFields = .ok o') : o' = o := by
  have ht : o.toFields.get? "token" = some o.token.text := by
    simp [toFields, SortedMap.ofList, SortedMap.get?_insert]
  have ho : o.toFields.get? "offset" = some (String.ofList (Json.renderInt o.offset)) := by
    simp [toFields, SortedMap.ofList, SortedMap.get?_insert]
  simp only [ofFields, FlatFields.field, ht, ho, bind, Except.bind,
    Int64Text.parse_renderInt] at h
  split at h
  · next hp =>
    split at hp
    · cases hp
    · split at hp
      · cases hp
      · cases hp
        cases h
        rfl
  · cases h

/-- What is decoded from a form of a token offset is that token offset. -/
theorem faithful : recordType.Faithful where
  ofJson o o' h := by
    simp only [recordType, decode_sorted_toJson] at h
    obtain ⟨n, hn, rfl⟩ := Option.map_eq_some_iff.1 h
    simp only [Json.reader, Json.int] at hn
    split at hn
    · cases hn; rfl
    · cases hn
  ofText o o' h := by
    simp only [recordType] at h
    rw [Json.Form.decode?_render rfl, decode_form_toJson, Json.Form.int_form_int] at h
    obtain ⟨n, hn, rfl⟩ := Option.map_eq_some_iff.1 h
    split at hn
    · cases hn; rfl
    · cases hn
  ofFields o _ h := ofFields_toFields o h

end TokenOffset

theorem RecordType.fullKey_inj {α : Type} {type : RecordType α} {key key' : String}
    (h : type.fullKey key = type.fullKey key') : key = key' := by
  simpa [fullKey, String.append_assoc] using h

namespace TimedCache

/-- A cache holds nothing that another one does not hold. -/
def Within (c c' : TimedCache) : Prop :=
  ∀ key e, c.entries.get? key = some e → c'.entries.get? key = some e

theorem Within.refl (c : TimedCache) : c.Within c := fun _ _ h => h

theorem Within.trans {c c' c'' : TimedCache} (h : c.Within c') (h' : c'.Within c'') :
    c.Within c'' := fun key e he => h' key e (h key e he)

theorem within_dropExpired (c : TimedCache) (now : Instant) (key : String) :
    (c.dropExpired now key).Within c := by
  intro key' e he
  rw [get?_dropExpired] at he
  split at he
  · exact (Option.filter_eq_some_iff.1 he).1
  · exact he

theorem within_purge (c : TimedCache) (now : Instant) : (c.purge now).Within c := by
  intro key e he
  rw [get?_purge] at he
  exact (Option.filter_eq_some_iff.1 he).1

end TimedCache

/-- Time adds nothing to a cache. -/
theorem SweptCache.within_advance (s : SweptCache) (now : Instant) (elapsed : Duration) :
    (s.advance now elapsed).cache.Within s.cache := by
  unfold advance
  generalize s.tickBound elapsed = fuel
  induction fuel generalizing s with
  | zero => exact .refl _
  | succ fuel ih =>
    rw [runUntil]
    split
    · next place tick _ =>
      refine (ih (s.tick place tick)).trans ?_
      unfold SweptCache.tick
      split
      · exact TimedCache.within_purge _ _
      · exact .refl _
    · exact .refl _

namespace TableStore

theorem rows_of_openRows {s : TableStore} {rows : SortedMap (SortedMap String)}
    (h : s.openRows = .ok rows) : s.rows = some rows := by
  unfold openRows at h
  split at h
  · cases h
  · split at h
    · next hr => cases h; exact hr
    · cases h

theorem isOpen_of_openRows {s : TableStore} {rows : SortedMap (SortedMap String)}
    (h : s.openRows = .ok rows) : s.isOpen = true := by
  unfold openRows at h
  split at h
  · cases h
  · next ho => simpa using ho

theorem openRows_write {s : TableStore} {rows rows' : SortedMap (SortedMap String)}
    (h : s.openRows = .ok rows) : { s with rows := some rows' }.openRows = .ok rows' := by
  simp [openRows, isOpen_of_openRows h]

theorem text?_insert (rows : SortedMap (SortedMap String)) (keyspace key key' text : String) :
    text? (rows.insert keyspace (((rows.get? keyspace).getD ∅).insert key text)) keyspace key' =
      if key' = key then some text else text? rows keyspace key' := by
  simp only [text?, SortedMap.get?_insert, if_true, Option.bind_some]
  cases rows.get? keyspace <;> rfl

end TableStore

namespace Store

variable {α : Type} {type : RecordType α} {s s' : Store} {key key' : String} {r r' : α}

/-- The record that a store keeps under a key, be it expired or not. -/
def kept? (s : Store) (type : RecordType α) (key : String) : Option α :=
  match s with
  | memory store => (store.documents.get? (type.fullKey key)).bind type.ofJson
  | timed swept =>
    (swept.cache.entries.get? (type.fullKey key)).bind fun e => (type.ofFields e.fields).toOption
  | table store =>
    store.rows.bind fun rows => (TableStore.text? rows type.keyspace key).bind type.ofText

theorem kept?_timed_mono {swept swept' : SweptCache} (h : swept'.cache.Within swept.cache)
    (hk : (timed swept').kept? type key = some r) : (timed swept).kept? type key = some r := by
  obtain ⟨e, he, hr⟩ := Option.bind_eq_some_iff.1 hk
  exact Option.bind_eq_some_iff.2 ⟨e, h _ e he, hr⟩

/-- What a store answers is what it keeps. -/
theorem kept?_of_get {now : Instant} (h : (s.get type now key).1 = .ok (some r)) :
    s.kept? type key = some r := by
  cases s with
  | memory store =>
    simp only [get, MemoryStore.get] at h
    split at h
    · cases h
    · next document hd =>
      split at h
      · next record hr =>
        cases h
        simp [kept?, hd, hr]
      · cases h
  | timed swept =>
    simp only [get, TimedCache.get, TimedCache.find] at h
    split at h
    · cases h
    · next e he =>
      split at h
      · cases hf : type.ofFields e.fields with
        | error => simp [TimedCache.answer, hf, Except.map] at h
        | ok record =>
          simp only [TimedCache.answer, hf, Except.map, Except.ok.injEq, Option.some.injEq] at h
          subst h
          simp [kept?, he, hf, Except.toOption]
      · cases h
  | table store =>
    simp only [get, TableStore.get, bind, Except.bind] at h
    split at h
    · cases h
    · next rows hr =>
      split at h
      · cases h
      · next text ht =>
        split at h
        · next record hd =>
          cases h
          simp [kept?, TableStore.rows_of_openRows hr, ht, hd]
        · cases h

/-- Reading brings nothing into a store. -/
theorem kept?_get {now : Instant} (h : (s.get type now key).2.kept? type key' = some r) :
    s.kept? type key' = some r := by
  cases s with
  | memory | table => exact h
  | timed swept =>
    refine kept?_timed_mono ?_ h
    simp only
    split
    · exact TimedCache.within_dropExpired _ _ _
    · exact .refl _

/-- Time brings nothing into a store. -/
theorem kept?_advance {now : Instant} {elapsed : Duration}
    (h : (s.advance now elapsed).kept? type key = some r) : s.kept? type key = some r := by
  cases s with
  | memory | table => exact h
  | timed swept => exact kept?_timed_mono (swept.within_advance now elapsed) h

/-- What is decoded of a record in the form in which a store keeps it. -/
def readBack (s : Store) (type : RecordType α) (r : α) : Option α :=
  match s with
  | memory _ => type.ofJson (type.toJson r).sorted
  | timed _ => (type.ofFields (type.toFields r)).toOption
  | table _ => type.ofText (type.toJson r).render

/-- A record that is read back is the one that was written, if its kind loses nothing. -/
theorem eq_of_readBack (hf : type.Faithful) (h : s.readBack type r = some r') : r' = r := by
  cases s with
  | memory => exact hf.ofJson _ _ h
  | timed =>
    refine hf.ofFields _ _ ?_
    cases hd : type.ofFields (type.toFields r) with
    | error => simp [readBack, hd, Except.toOption] at h
    | ok record => simpa [readBack, hd, Except.toOption] using h
  | table => exact hf.ofText _ _ h

/-- What a write makes of a store. -/
inductive Written (type : RecordType α) (key : String) (r : α) : Store → Store → Prop
  | memory {store} : Written type key r (memory store) (memory (store.put type key r))
  | timed {swept expiresAt} : Written type key r (timed swept) (timed { swept with
      cache := { swept.cache with
        entries := swept.cache.entries.insert (type.fullKey key) ⟨type.toFields r, expiresAt⟩ } })
  | table {store rows} : store.openRows = .ok rows → Written type key r (table store)
      (table { store with
        rows := some (rows.insert type.keyspace
          (((rows.get? type.keyspace).getD ∅).insert key (type.toJson r).render)) })

/-- A write that succeeds leaves the record under its key and all else alone. -/
theorem written_of_put {now : Instant} {ttl : Option Duration}
    (hp : s.put type now key r ttl = .ok s') : Written type key r s s' := by
  cases s with
  | memory store => cases hp; exact .memory
  | timed swept =>
    simp only [put] at hp
    split at hp
    · next cache hc =>
      cases hp
      obtain ⟨expiresAt, -, rfl⟩ := Option.map_eq_some_iff.1 hc
      exact .timed
    · cases hp
  | table store =>
    simp only [put, TableStore.put, TableStore.write] at hp
    cases hr : store.openRows with
    | error => simp [hr, Except.map] at hp
    | ok rows =>
      simp only [hr, Except.map, Except.ok.injEq] at hp
      subst hp
      exact .table hr

/-- A write changes what is kept under its own key, and nothing else. -/
theorem kept?_put_eq {now : Instant} {ttl : Option Duration}
    (hp : s.put type now key r ttl = .ok s') (key' : String) :
    s'.kept? type key' = if key' = key then s.readBack type r else s.kept? type key' := by
  have hfull : type.fullKey key' = type.fullKey key ↔ key' = key :=
    ⟨RecordType.fullKey_inj, congrArg _⟩
  cases written_of_put hp with
  | memory =>
    simp only [kept?, readBack, MemoryStore.put, SortedMap.get?_insert, hfull]
    split <;> rfl
  | timed =>
    simp only [kept?, readBack, SortedMap.get?_insert, hfull]
    split <;> rfl
  | table hr =>
    simp only [kept?, readBack, TableStore.rows_of_openRows hr, Option.bind_some,
      TableStore.text?_insert]
    split <;> rfl

/-- What is kept after a write was written or has been kept before. -/
theorem kept?_put (hf : type.Faithful) {now : Instant} {ttl : Option Duration}
    (hp : s.put type now key r ttl = .ok s') (hk : s'.kept? type key' = some r') :
    key' = key ∧ r' = r ∨ s.kept? type key' = some r' := by
  rw [kept?_put_eq hp] at hk
  split at hk
  · next he => exact .inl ⟨he, eq_of_readBack hf hk⟩
  · exact .inr hk

/-- A write does not change what is answered about another key. -/
theorem get_put_of_ne {now now' : Instant} {ttl : Option Duration}
    (hp : s.put type now key r ttl = .ok s') (hne : key' ≠ key) :
    (s'.get type now' key').1 = (s.get type now' key').1 := by
  have hfull : type.fullKey key' ≠ type.fullKey key := fun h => hne (RecordType.fullKey_inj h)
  cases written_of_put hp with
  | memory => simp only [get, MemoryStore.get, MemoryStore.put, SortedMap.get?_insert, if_neg hfull]
  | timed => simp only [get, TimedCache.get, TimedCache.find, SortedMap.get?_insert, if_neg hfull]
  | table hr =>
    simp only [get, TableStore.get, hr, TableStore.openRows_write hr, bind, Except.bind,
      TableStore.text?_insert, if_neg hne]

/-! ## Stores that take every record -/

/-- Whether a store takes records: a table must be there and open. -/
def Accepts : Store → Prop
  | table store => ∃ rows, store.openRows = .ok rows
  | _ => True

/-- A store that takes records refuses none of them, and goes on to take them. -/
theorem Accepts.put (h : s.Accepts) (type : RecordType α) (now : Instant) (key : String) (r : α)
    (ttl : Option Duration) :
    s.put type now key r ttl = .error .clockOverflow ∨
      ∃ s', s.put type now key r ttl = .ok s' ∧ s'.Accepts := by
  cases s with
  | memory store => exact .inr ⟨_, rfl, trivial⟩
  | timed swept =>
    simp only [Store.put]
    split
    · exact .inr ⟨_, rfl, trivial⟩
    · exact .inl rfl
  | table store =>
    obtain ⟨rows, hr⟩ := h
    simp only [Store.put, TableStore.put, TableStore.write, hr, Except.map]
    exact .inr ⟨_, rfl, _, TableStore.openRows_write hr⟩

theorem Accepts.getD_put (h : s.Accepts) (type : RecordType α) (now : Instant) (key : String)
    (r : α) (ttl : Option Duration) : ((s.put type now key r ttl).toOption.getD s).Accepts := by
  rcases h.put type now key r ttl with hp | ⟨s', hp, hs⟩ <;> rw [hp]
  · exact h
  · exact hs

theorem Accepts.advance (h : s.Accepts) (now : Instant) (elapsed : Duration) :
    (s.advance now elapsed).Accepts := by
  cases s with
  | memory | table => exact h
  | timed => trivial

/-! ## Writes whose end the clock cannot hold -/

/-- Whether the records of a store come to an end. -/
def isCache : Store → Bool
  | timed _ => true
  | memory _ => false
  | table _ => false

/-- The clock cannot hold the end of a record that is written now. -/
def Overflows (s : Store) (now : Instant) (ttl : Option Duration) : Prop :=
  ∃ swept, s = timed swept ∧ now.after? (swept.cache.effectiveTtl ttl) = none

theorem isCache_of_overflows {now : Instant} {ttl : Option Duration} (h : s.Overflows now ttl) :
    s.isCache := by
  obtain ⟨_, rfl, -⟩ := h
  rfl

theorem overflows_of_put {now : Instant} {ttl : Option Duration}
    (h : s.put type now key r ttl = .error .clockOverflow) : s.Overflows now ttl := by
  cases s with
  | memory => cases h
  | table =>
    simp only [put] at h
    split at h <;> cases h
  | timed swept =>
    simp only [put] at h
    split at h
    · cases h
    · next hp => exact ⟨swept, rfl, Option.map_eq_none_iff.1 hp⟩

theorem isCache_put {now : Instant} {ttl : Option Duration}
    (h : s.put type now key r ttl = .ok s') : s'.isCache = s.isCache := by
  cases s with
  | memory => cases h; rfl
  | table =>
    simp only [put] at h
    split at h <;> cases h
    rfl
  | timed =>
    simp only [put] at h
    split at h <;> cases h
    rfl

theorem isCache_get (s : Store) (type : RecordType α) (now : Instant) (key : String) :
    (s.get type now key).2.isCache = s.isCache := by
  cases s <;> rfl

theorem isCache_advance (s : Store) (now : Instant) (elapsed : Duration) :
    (s.advance now elapsed).isCache = s.isCache := by
  cases s <;> rfl

/-! ## Stores that keep every record -/

/-- A store that keeps what it takes: one in memory, or a table that is there and open. -/
def Lasts : Store → Prop
  | memory _ => True
  | timed _ => False
  | table store => ∃ rows, store.openRows = .ok rows

/-- Such a store answers what it keeps. -/
theorem Lasts.get_eq (h : s.Lasts) (hk : s.kept? type key = some r) (now : Instant) :
    (s.get type now key).1 = .ok (some r) := by
  cases s with
  | memory store =>
    obtain ⟨document, hd, hr⟩ := Option.bind_eq_some_iff.1 hk
    simp [get, MemoryStore.get, hd, hr]
  | timed => cases h
  | table store =>
    obtain ⟨rows, hrows⟩ := h
    simp only [kept?, TableStore.rows_of_openRows hrows, Option.bind_some] at hk
    obtain ⟨text, ht, hr⟩ := Option.bind_eq_some_iff.1 hk
    simp [get, TableStore.get, hrows, ht, hr, bind, Except.bind, pure, Except.pure]

theorem Lasts.put (h : s.Lasts) {ttl : Option Duration}
    (hp : s.put type now key r ttl = .ok s') : s'.Lasts := by
  cases written_of_put hp with
  | memory => trivial
  | timed => cases h
  | table hr => exact ⟨_, TableStore.openRows_write hr⟩

theorem Lasts.advance (h : s.Lasts) (now : Instant) (elapsed : Duration) :
    s.advance now elapsed = s := by
  cases s with
  | memory | table => rfl
  | timed => cases h

end Store

end PolicyGate

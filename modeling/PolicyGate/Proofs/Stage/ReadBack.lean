import PolicyGate.Pipeline.Schedule
import PolicyGate.Proofs.Stage.Gather
import PolicyGate.Proofs.Topic.Following

/-!
What comes of reading a token back, wherever the reading starts and whatever else the topic carries.
A start marker makes a reading forget what it has, so that only the last one before the end marker
counts. Main statements: what a reading has is what stands between its start and its place
(`ReadFrom.sought`), and its result does not depend on where it started (`read_back`).
-/

namespace PolicyGate

open Envelope ListUpdate

namespace Envelope

variable {α : Type} {token : Token} {l : List (Envelope α)} {first last : Nat}

/-- What the messages of a token carry, in the order of the log. -/
def messages (token : Token) (l : List (Envelope α)) : List α := (stream token l).filterMap payload?

/-- Where a token ends in a log, and where it last started before that. -/
structure LastPart (token : Token) (l : List (Envelope α)) (first last : Nat) : Prop where
  start : l[first]? = some ⟨token, .start⟩
  finish : l[last]? = some ⟨token, .finish⟩
  lt : first < last
  later : ∀ i, l[i]? = some ⟨token, .start⟩ → i < last → i ≤ first
  earlier : ∀ i, l[i]? = some ⟨token, .finish⟩ → last ≤ i

/-- The token does not end between two places of a log. -/
def Unended (token : Token) (l : List (Envelope α)) (start stop : Nat) : Prop :=
  ∀ i, start ≤ i → i < stop → l[i]? ≠ some ⟨token, .finish⟩

theorem messages_append (token : Token) (l l' : List (Envelope α)) :
    messages token (l ++ l') = messages token l ++ messages token l' := by
  rw [messages, stream_append, List.filterMap_append]
  rfl

/-- What lies before the last start marker can be cut off. -/
theorem LastPart.drop_take (H : LastPart token l first last) {start : Nat} (hs : start ≤ first) :
    ∃ before, (l.take last).drop start =
      before ++ ⟨token, .start⟩ :: (l.take last).drop (first + 1) := by
  obtain ⟨hlt, hstart⟩ := List.getElem?_eq_some_iff.1 H.start
  have hlt' : first < (l.take last).length := by
    rw [List.length_take]
    exact Nat.lt_min.2 ⟨H.lt, hlt⟩
  have hcons := List.drop_eq_getElem_cons hlt'
  rw [List.getElem_take, hstart] at hcons
  refine ⟨((l.take last).drop start).take (first - start), ?_⟩
  rw [← hcons]
  conv_lhs => rw [← List.take_append_drop (first - start) ((l.take last).drop start)]
  rw [List.drop_drop, Nat.add_sub_cancel' hs]

theorem LastPart.not_start (H : LastPart token l first last) :
    ∀ e ∈ (l.take last).drop (first + 1), e ≠ ⟨token, .start⟩ := by
  rintro e he rfl
  obtain ⟨i, hi⟩ := List.mem_iff_getElem?.1 he
  rw [List.getElem?_drop, List.getElem?_take] at hi
  split at hi
  · next hlt =>
    have := H.later _ hi hlt
    omega
  · cases hi

end Envelope

namespace Reading

variable {token : Token} {boundary boundary' : Marker} {offset offset' : TokenOffset}
  {l l' : Log AuthorisedResource} {r r' : Reading} {start stop : Nat}
  {envelopes : List (Envelope AuthorisedResource)} {found : List AuthorisedResource}

/-! ## What is collected on the way -/

theorem gather_append_start (token : Token) (before rest : List (Envelope AuthorisedResource)) :
    gather token (before ++ ⟨token, .start⟩ :: rest) = gather token rest := by
  rw [gather, List.foldl_append, List.foldl_cons]
  simp [collect, Collected.found, gather]

theorem gather_eq_messages (h : ∀ e ∈ envelopes, e ≠ ⟨token, .start⟩) :
    gather token envelopes = messages token envelopes := by
  induction envelopes using List.reverseRecOn with
  | nil => rfl
  | append_singleton rest e ih =>
    have hrest := ih fun e he => h e (List.mem_append_left _ he)
    rw [gather_concat, messages_append, hrest]
    by_cases ht : e.token = token
    · obtain ⟨t, frame⟩ := e
      cases ht
      cases frame with
      | start => exact absurd rfl (h _ (List.mem_append_right _ (List.mem_singleton_self _)))
      | message a => simp [collect, Collected.found, messages, stream, payload?]
      | finish => simp [collect, Collected.found, messages, stream, payload?]
    · rw [collect_of_ne ht, messages, messages, stream_singleton_of_ne ht]
      simp [Collected.found]

/-- Whoever starts no later than the token did last has the messages from there on. -/
theorem gather_of_lastPart {first last : Nat} (H : LastPart token envelopes first last)
    (hs : start ≤ first) : gather token ((envelopes.take last).drop start) =
      messages token ((envelopes.take last).drop (first + 1)) := by
  obtain ⟨before, hcut⟩ := H.drop_take hs
  rw [hcut, gather_append_start, gather_eq_messages H.not_start]

/-! ## One reading while the topic goes on -/

/-- A reading of a token that was sent to an offset, with the topic that it reads: meanwhile others
publish, and someone may close the topic. -/
inductive ReadFrom (token : Token) (boundary : Marker) (offset : TokenOffset) :
    Log AuthorisedResource → Reading → Prop
  | hear {c : Coordinator} {request : Nat} {l : Log AuthorisedResource} {r : Reading} :
    c.answerTo? request = some (.ok offset) → hear ⟨token, .asking request⟩ boundary c l = some r →
    ReadFrom token boundary offset l r
  | publish {l l' : Log AuthorisedResource} {r : Reading} {e n} :
    ReadFrom token boundary offset l r → l.publish e = .ok (n, l') →
    ReadFrom token boundary offset l' r
  | close {l : Log AuthorisedResource} {r : Reading} : ReadFrom token boundary offset l r →
    ReadFrom token boundary offset l.close r
  | read {l : Log AuthorisedResource} {r r' : Reading} : ReadFrom token boundary offset l r →
    r.readNext l = some r' → ReadFrom token boundary offset l r'

/-- Going on to read a topic that stays as it is. -/
abbrev Reads (l : Log AuthorisedResource) : Reading → Reading → Prop :=
  Relation.ReflTransGen fun r r' => r.readNext l = some r'

/-- What a reading that started at a place has come to. -/
def Sought (token : Token) (start : Nat) (l : Log AuthorisedResource) (r : Reading) : Prop :=
  r.token = token ∧ match r.phase with
  | .collecting reader found => start ≤ reader.position ∧
    reader.position ≤ max start l.envelopes.length ∧
    Unended token l.envelopes start reader.position ∧
    found = gather token ((l.envelopes.take reader.position).drop start)
  | .finished (.ok all) => ∃ n, start ≤ n ∧ l.envelopes[n]? = some ⟨token, .finish⟩ ∧
    Unended token l.envelopes start n ∧ all = gather token ((l.envelopes.take n).drop start)
  | .finished (.error e) => e = .closed l.closedError ∧ l.isClosed ∧
    Unended token l.envelopes start l.envelopes.length
  | _ => False

namespace Sought

/-- A reading goes on to find what it is after when the log grows. -/
theorem publish {e : Envelope AuthorisedResource} {n : Nat} (H : Sought token start l r)
    (h : l.publish e = .ok (n, l')) : Sought token start l' r := by
  obtain ⟨hopen, -, henvelopes⟩ := Log.publish_eq_ok h
  -- what is new lies behind all that has been read
  have hunended : ∀ stop ≤ max start l.envelopes.length, Unended token l.envelopes start stop →
      Unended token l'.envelopes start stop := by
    intro stop hle hno i hi hlt
    rw [henvelopes, List.getElem?_append_left (by omega)]
    exact hno i hi hlt
  have hcut : ∀ stop ≤ max start l.envelopes.length,
      (l'.envelopes.take stop).drop start = (l.envelopes.take stop).drop start := by
    intro stop hle
    rw [henvelopes]
    by_cases hl : stop ≤ l.envelopes.length
    · rw [List.take_append_of_le_length hl]
    · have hs : stop ≤ start := by omega
      rw [List.drop_of_length_le (Nat.le_trans (List.length_take_le ..) hs),
        List.drop_of_length_le (Nat.le_trans (List.length_take_le ..) hs)]
  obtain ⟨ht, H⟩ := H
  refine ⟨ht, ?_⟩
  split at H
  · obtain ⟨hs, hle, hno, hfound⟩ := H
    refine ⟨hs, ?_, hunended _ hle hno, by rw [hcut _ hle]; exact hfound⟩
    rw [henvelopes, List.length_append]
    omega
  · obtain ⟨m, hs, hm, hno, hall⟩ := H
    have hlt := (List.getElem?_eq_some_iff.1 hm).1
    have hle : m ≤ max start l.envelopes.length := by omega
    refine ⟨m, hs, ?_, hunended _ hle hno, by rw [hcut _ hle]; exact hall⟩
    rw [henvelopes, List.getElem?_append_left hlt, hm]
  · rw [H.2.1] at hopen
    cases hopen
  · cases H

theorem close (H : Sought token start l r) : Sought token start l.close r := by
  obtain ⟨ht, H⟩ := H
  refine ⟨ht, ?_⟩
  split at H
  · exact H
  · exact H
  · exact ⟨H.1, rfl, H.2.2⟩
  · cases H

theorem read (H : Sought token start l r) (h : r.readNext l = some r') :
    Sought token start l r' := by
  obtain ⟨rfl, H⟩ := H
  cases stepped_of_readNext h .start (.new ⟨0⟩) with
  | hear hp | fail hp =>
    rw [hp] at H
    cases H
  | @more reader found entry found' hp he hc =>
    rw [hp] at H
    obtain ⟨hs, hle, hno, hfound⟩ := H
    obtain ⟨hentry, -⟩ := Log.read_eq_some_iff.1 he
    have hlt := (List.getElem?_eq_some_iff.1 hentry).1
    refine ⟨rfl, Nat.le_succ_of_le hs, Nat.le_trans hlt (Nat.le_max_right ..), ?_, ?_⟩
    · intro i hi hilt hfinish
      rcases Nat.lt_succ_iff_lt_or_eq.1 hilt with hilt | rfl
      · exact hno i hi hilt hfinish
      · rw [hentry, Option.some.injEq] at hfinish
        rw [hfinish] at hc
        simp [collect] at hc
    · have hlen : start ≤ (l.envelopes.take reader.position).length := by
        rw [List.length_take]
        omega
      rw [List.take_add_one, hentry, Option.toList_some, List.drop_append_of_le_length hlen,
        gather_concat, ← hfound, hc]
      rfl
  | @complete reader found entry all hp he hc =>
    rw [hp] at H
    obtain ⟨hs, -, hno, hfound⟩ := H
    obtain ⟨hentry, -⟩ := Log.read_eq_some_iff.1 he
    obtain ⟨hfinish, rfl⟩ := finish_of_complete hc
    exact ⟨rfl, reader.position, hs, by rw [hentry, hfinish], hno, hfound⟩
  | @ended reader found hp he hclosed =>
    rw [hp] at H
    obtain ⟨-, -, hno, -⟩ := H
    have hend : l.envelopes.length ≤ reader.position :=
      Log.length_le_of_read he
    exact ⟨rfl, rfl, hclosed, fun i hi hlt => hno i hi (Nat.lt_of_lt_of_le hlt hend)⟩

end Sought

/-- Whatever happens meanwhile, a reading has what stands between its start and its place. -/
theorem ReadFrom.sought (h : ReadFrom token boundary offset l r) :
    Sought token (startOffset boundary offset).toNat l r := by
  induction h with
  | hear ha hr =>
    simp only [Reading.hear, ha, Option.map_some, Option.some.injEq] at hr
    subst hr
    refine ⟨rfl, Nat.le_refl _, Nat.le_max_left ..,
      fun i hi hlt => absurd hlt (Nat.not_lt.2 hi), ?_⟩
    simp [Reader.new, gather]
  | publish _ hp ih => exact ih.publish hp
  | close _ ih => exact ih.close
  | read _ hr ih => exact ih.read hr

/-! ## How a reading comes to its end -/

/-- Every step of a reading leaves less to do. -/
theorem readingLoad_lt (h : r.readNext l = some r') :
    Schedule.readingLoad l.endOffset r' < Schedule.readingLoad l.endOffset r := by
  cases stepped_of_readNext h .start (.new ⟨0⟩) with
  | hear hp => simp [readNext, hp] at h
  | fail hp | complete hp | ended hp => simp [Schedule.readingLoad, hp]
  | @more reader found entry found' hp he =>
    have hlt : reader.position < l.endOffset := (List.getElem?_eq_some_iff.1 he).1
    simp only [Schedule.readingLoad, hp]
    omega

/-- A reading that goes on comes to a place where it has to wait, or to its end. -/
theorem exists_reads (l : Log AuthorisedResource) (r : Reading) :
    ∃ r', Reads l r r' ∧ r'.readNext l = none := by
  induction hn : Schedule.readingLoad l.endOffset r using Nat.strongRecOn generalizing r with
  | ind n ih =>
    cases hr : r.readNext l with
    | none => exact ⟨r, .refl, hr⟩
    | some r₁ =>
      obtain ⟨r', hreads, hstuck⟩ := ih _ (hn ▸ readingLoad_lt hr) r₁ rfl
      exact ⟨r', .head hr hreads, hstuck⟩

theorem ReadFrom.reads (h : ReadFrom token boundary offset l r) (hr : Reads l r r') :
    ReadFrom token boundary offset l r' := by
  induction hr with
  | refl => exact h
  | tail _ hs ih => exact ih.read hs

namespace Sought

variable {first last : Nat} {result : Except StageError (List AuthorisedResource)}

/-- Only at the end of an open topic is there nothing to read. -/
theorem result_or_waits (H : Sought token start l r) (h : r.readNext l = none) :
    (∃ result, r.result? = some result) ∨
      (l.isClosed = false ∧ Unended token l.envelopes start l.envelopes.length) := by
  obtain ⟨rfl, H⟩ := H
  unfold readNext at h
  split at H
  · next reader found hp =>
    obtain ⟨-, -, hno, -⟩ := H
    simp only [hp] at h
    cases he : l.read reader.position with
    | some => simp [Reader.position_next_of_read he] at h
    | none =>
      have hend : l.envelopes.length ≤ reader.position :=
        Log.length_le_of_read he
      refine .inr ⟨?_, fun i hi hlt => hno i hi (Nat.lt_of_lt_of_le hlt hend)⟩
      rw [Reader.next_of_read_eq_none he] at h
      cases hc : l.isClosed with
      | false => rfl
      | true => simp [hc] at h
  · next hp => exact .inl ⟨_, by simp only [result?, hp]; rfl⟩
  · next hp => exact .inl ⟨_, by simp only [result?, hp]; rfl⟩
  · cases H

/-- A reading that starts in time gives the last part of its token. -/
theorem result_of_lastPart (H : Sought token start l r)
    (hpart : LastPart token l.envelopes first last) (hs : start ≤ first)
    (hr : r.result? = some result) :
    result = .ok (messages token ((l.envelopes.take last).drop (first + 1))) := by
  obtain ⟨-, H⟩ := H
  rw [phase_of_result? hr] at H
  have hsl : start ≤ last := Nat.le_trans hs (Nat.le_of_lt hpart.lt)
  cases result with
  | ok all =>
    obtain ⟨n, hn, hfinish, hno, rfl⟩ := H
    have hle : ¬ last < n := fun hlt => hno last hsl hlt hpart.finish
    have heq : n = last := Nat.le_antisymm (Nat.not_lt.1 hle) (hpart.earlier n hfinish)
    rw [heq, gather_of_lastPart hpart hs]
  | error e =>
    have hlt := (List.getElem?_eq_some_iff.1 hpart.finish).1
    exact absurd hpart.finish (H.2.2 last hsl hlt)

/-- Without an end marker, a reading ends only with the closing of the topic. -/
theorem result_of_unended (H : Sought token start l r)
    (hno : Unended token l.envelopes start l.envelopes.length) (hr : r.result? = some result) :
    l.isClosed ∧ result = .error (.closed l.closedError) := by
  obtain ⟨-, H⟩ := H
  rw [phase_of_result? hr] at H
  cases result with
  | ok all =>
    obtain ⟨n, hn, hfinish, -⟩ := H
    exact absurd hfinish (hno n hn (List.getElem?_eq_some_iff.1 hfinish).1)
  | error e => exact ⟨H.2.1, congrArg _ H.1⟩

end Sought

/-- An offset leads to one of the start markers of a token before its end marker, or else the
boundary is the end marker and the topic is read from the first entry on. -/
def LeadsTo (token : Token) (l : List (Envelope AuthorisedResource)) (last : Nat) :
    Marker → TokenOffset → Prop
  | .start, offset => ∃ i : Nat, offset.offset = i ∧ l[i]? = some ⟨token, .start⟩ ∧ i < last
  | .finish, _ => True

theorem LeadsTo.startOffset_le {first last : Nat}
    (H : LeadsTo token envelopes last boundary offset)
    (hpart : LastPart token envelopes first last) : startOffset boundary offset ≤ first := by
  cases boundary with
  | start =>
    obtain ⟨i, ho, hi, hlt⟩ := H
    rw [startOffset, ho]
    exact Int.ofNat_le.2 (hpart.later i hi hlt)
  | finish => exact Int.natCast_nonneg first

/-- A reading that starts no later than its token did last before its end marker gives just what
stands between the two, as soon as it has read so far, whatever it has passed before and whatever
there is of other tokens. So it is all one whether it was sent to any of the start markers or to the
end marker. A reading that meets no end marker gives the closing of the topic, and nothing before.
-/
theorem read_back (h : ReadFrom token boundary offset l r) :
    (∀ first last, LastPart token l.envelopes first last → startOffset boundary offset ≤ first →
      (∀ result, r.result? = some result →
        result = .ok (messages token ((l.envelopes.take last).drop (first + 1)))) ∧
      ∃ r', Reads l r r' ∧
        r'.result? = some (.ok (messages token ((l.envelopes.take last).drop (first + 1))))) ∧
    (∀ first last boundary' offset' r' result result', LastPart token l.envelopes first last →
      LeadsTo token l.envelopes last boundary offset →
      LeadsTo token l.envelopes last boundary' offset' → ReadFrom token boundary' offset' l r' →
      r.result? = some result → r'.result? = some result' → result = result') ∧
    (Unended token l.envelopes (startOffset boundary offset).toNat l.envelopes.length →
      (∀ result, r.result? = some result →
        l.isClosed ∧ result = .error (.closed l.closedError)) ∧
      (l.isClosed → ∃ r', Reads l r r' ∧
        r'.result? = some (.error (.closed l.closedError)))) := by
  obtain ⟨r', hreads, hstuck⟩ := exists_reads l r
  have H := h.sought
  have H' := (h.reads hreads).sought
  refine ⟨fun first last hpart hs => ?_, ?_, fun hno => ?_⟩
  · have hs := Int.toNat_le.2 hs
    refine ⟨fun result => H.result_of_lastPart hpart hs, r', hreads, ?_⟩
    rcases H'.result_or_waits hstuck with ⟨result, hr⟩ | ⟨-, hno⟩
    · rw [hr, H'.result_of_lastPart hpart hs hr]
    · have hlt := (List.getElem?_eq_some_iff.1 hpart.finish).1
      exact absurd hpart.finish (hno last (Nat.le_trans hs (Nat.le_of_lt hpart.lt)) hlt)
  · intro first last boundary' offset' r₁ result result' hpart hlead hlead' h₁ hr hr₁
    rw [H.result_of_lastPart hpart (Int.toNat_le.2 (hlead.startOffset_le hpart)) hr,
      h₁.sought.result_of_lastPart hpart (Int.toNat_le.2 (hlead'.startOffset_le hpart)) hr₁]
  · refine ⟨fun result => H.result_of_unended hno, fun hc => ⟨r', hreads, ?_⟩⟩
    rcases H'.result_or_waits hstuck with ⟨result, hr⟩ | ⟨hopen, -⟩
    · rw [hr, (H'.result_of_unended hno hr).2]
    · rw [hc] at hopen
      cases hopen

/-- A token starts twice, and its second part comes while one reading is under way that was sent to
the first start marker. Another reading is sent to the end marker. -/
theorem read_back_restarted : ∃ (l : Log AuthorisedResource) (r r' : Reading)
    (all : List AuthorisedResource),
    ReadFrom ⟨"t"⟩ .start ⟨⟨"t"⟩, 0⟩ l r ∧ r.result? = none ∧
    ReadFrom ⟨"t"⟩ .finish ⟨⟨"t"⟩, 5⟩ l r' ∧ r'.result? = some (.ok all) ∧
    LastPart ⟨"t"⟩ l.envelopes 2 5 ∧ all.map (·.resource.id) = [⟨"file:/c"⟩] ∧
    (∃ r'', Reads l r r'' ∧ r''.result? = some (.ok all)) ∧
    ∀ result, r'.result? = some result → result = .ok all := by
  let resource (id : String) : AuthorisedResource := ⟨.ofId ⟨"ann"⟩, .empty, .ofId ⟨id⟩, none⟩
  let c : Coordinator := { Coordinator.new ⟨1000⟩ with
    answers := [(0, .ok ⟨⟨"t"⟩, 0⟩), (1, .ok ⟨⟨"t"⟩, 5⟩)] }
  let l : Log AuthorisedResource := ⟨"output", [⟨0, ⟨"t"⟩, .start⟩,
    ⟨1, ⟨"t"⟩, .message (resource "file:/a")⟩, ⟨2, ⟨"t"⟩, .start⟩,
    ⟨3, ⟨"u"⟩, .message (resource "file:/b")⟩, ⟨4, ⟨"t"⟩, .message (resource "file:/c")⟩,
    ⟨5, ⟨"t"⟩, .finish⟩], false, 6, 6, rfl⟩
  have h : ReadFrom ⟨"t"⟩ .start ⟨⟨"t"⟩, 0⟩ (.new "output") _ :=
    .hear (c := c) (rfl : c.answerTo? 0 = _) rfl
  have h := h.publish (e := ⟨⟨"t"⟩, .start⟩) rfl
  have h := h.publish (e := ⟨⟨"t"⟩, .message (resource "file:/a")⟩) rfl
  have h := (h.read rfl).read rfl
  have h := h.publish (e := ⟨⟨"t"⟩, .start⟩) rfl
  have h := h.publish (e := ⟨⟨"u"⟩, .message (resource "file:/b")⟩) rfl
  have h := h.publish (e := ⟨⟨"t"⟩, .message (resource "file:/c")⟩) rfl
  have h : ReadFrom ⟨"t"⟩ .start ⟨⟨"t"⟩, 0⟩ l _ := h.publish (e := ⟨⟨"t"⟩, .finish⟩) rfl
  have h' : ReadFrom ⟨"t"⟩ .finish ⟨⟨"t"⟩, 5⟩ l _ :=
    .hear (c := c) (rfl : c.answerTo? 1 = _) rfl
  have h' := (((((h'.read rfl).read rfl).read rfl).read rfl).read rfl).read rfl
  have hpart : LastPart ⟨"t"⟩ l.envelopes 2 5 := by
    refine ⟨rfl, rfl, by decide, ?_, ?_⟩
    · intro i hi hlt
      by_contra hle
      obtain rfl | rfl : i = 3 ∨ i = 4 := by omega
      all_goals simp [l, Log.envelopes] at hi
    · intro i hi
      by_contra hlt
      obtain rfl | rfl | rfl | rfl | rfl : i = 0 ∨ i = 1 ∨ i = 2 ∨ i = 3 ∨ i = 4 := by omega
      all_goals simp [l, Log.envelopes] at hi
  obtain ⟨hfirst, -, -⟩ := read_back h
  obtain ⟨hfirst', -, -⟩ := read_back h'
  exact ⟨l, _, _, [resource "file:/c"], h, rfl, h', rfl, hpart, rfl,
    (hfirst 2 5 hpart (by decide)).2, (hfirst' 2 5 hpart (by decide)).1⟩

end Reading

end PolicyGate

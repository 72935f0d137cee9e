import Mathlib.Data.List.Induction
import PolicyGate.Proofs.Offset.Known
import PolicyGate.Proofs.Pipeline.Step
import PolicyGate.Proofs.Topic.Stream

/-!
What a reading collects. Main statements: wherever it begins, a reading that comes to the end marker
of its token has what a reading of all entries before the marker collects (`Reading.Sound.step`),
and that depends on the stream of the token alone (`gather_stream`).
-/

namespace PolicyGate

open ListUpdate Envelope

/-- An offset leads to the marker of its token. -/
def TokenOffset.Points (boundary : Marker) (output : List (Envelope AuthorisedResource))
    (o : TokenOffset) : Prop :=
  ∃ n e, o.offset = Int.ofNat n ∧ output[n]? = some e ∧ e.token = o.token ∧
    e.marker? = some boundary

theorem TokenOffset.Points.mono {boundary : Marker} {o : TokenOffset}
    {output output' : List (Envelope AuthorisedResource)} (H : o.Points boundary output)
    (h : output <+: output') : o.Points boundary output' := by
  obtain ⟨n, e, ho, hn, he⟩ := H
  exact ⟨n, e, ho, getElem?_mono h hn, he⟩

/-- What has been collected. -/
def Collected.found : Collected → List AuthorisedResource
  | more found => found
  | complete found => found

namespace Reading

/-- What a reading from the first entry on has collected in the end. -/
def gather (token : Token) (l : List (Envelope AuthorisedResource)) : List AuthorisedResource :=
  l.foldl (fun found e => (collect token found e).found) []

/-- What a reading knows: who it asked for, that it has collected what a reading from the first
entry on would have, or stands at a start marker, and that it was over at an end marker. Nothing is
known about what is collected for a token that was known before. -/
def Sound (fresh : Token → Prop) (asked : List Token) (output : List (Envelope AuthorisedResource))
    (r : Reading) : Prop :=
  match r.phase with
  | .fresh => True
  | .asking request => asked[request]? = some r.token
  | .collecting reader found => fresh r.token → reader.position ≤ output.length ∧
    (found = gather r.token (output.take reader.position) ∨
      found = [] ∧ output[reader.position]? = some ⟨r.token, .start⟩)
  | .finished (.ok all) => ∃ n, output[n]? = some ⟨r.token, .finish⟩ ∧
    (fresh r.token → all = gather r.token (output.take n))
  | .finished (.error _) => True

variable {token : Token} {found all : List AuthorisedResource} {e : Envelope AuthorisedResource}
  {l output output' : List (Envelope AuthorisedResource)}

theorem phase_of_result? {r : Reading} {result : Except StageError (List AuthorisedResource)}
    (h : r.result? = some result) : r.phase = .finished result := by
  unfold result? at h
  split at h
  · next hp => cases h; exact hp
  · cases h

theorem gather_concat (token : Token) (l : List (Envelope AuthorisedResource))
    (e : Envelope AuthorisedResource) :
    gather token (l ++ [e]) = (collect token (gather token l) e).found := by
  simp [gather, List.foldl_append]

/-- Only entries of the token count. -/
theorem gather_stream (token : Token) (l : List (Envelope AuthorisedResource)) :
    gather token (stream token l) = gather token l := by
  induction l using List.reverseRecOn with
  | nil => rfl
  | append_singleton l e ih =>
    rw [stream_append, gather_concat]
    by_cases he : e.token = token
    · rw [stream_singleton he, gather_concat, ih]
    · rw [stream_singleton_of_ne he, List.append_nil, ih, collect_of_ne he]
      rfl

theorem gather_messages (token : Token) (all : List AuthorisedResource) :
    gather token (⟨token, .start⟩ :: all.map fun a => ⟨token, .message a⟩) = all := by
  induction all using List.reverseRecOn with
  | nil => simp [gather, collect, Collected.found]
  | append_singleton all a ih =>
    rw [List.map_append, ← List.cons_append, List.map_singleton, gather_concat, ih]
    simp [collect, Collected.found]

theorem finish_of_complete (h : collect token found e = .complete all) :
    e = ⟨token, .finish⟩ ∧ all = found := by
  obtain ⟨t, frame⟩ := e
  unfold collect at h
  split at h
  · next ht =>
    cases frame with
    | finish => cases h; exact ⟨congrArg (Envelope.mk · _) ht, rfl⟩
    | start | message => cases h
  · cases h

/-- If no more than one part of a token has been read, the messages before its end are those of the
part. -/
theorem gather_take {n : Nat} (hn : output[n]? = some ⟨token, .finish⟩)
    (h : stream token output <+:
      (⟨token, .start⟩ :: all.map fun a => ⟨token, .message a⟩) ++ [⟨token, .finish⟩]) :
    gather token (output.take n) = all := by
  have hp : stream token (output.take n) ++ [⟨token, .finish⟩] <+: stream token output := by
    have hs : stream token [(⟨token, .finish⟩ : Envelope AuthorisedResource)] =
        [⟨token, .finish⟩] := stream_singleton rfl
    have := stream_mono (List.take_prefix (n + 1) output) token
    rwa [List.take_add_one, hn, Option.toList_some, stream_append, hs] at this
  have he : stream token (output.take n) =
      ⟨token, .start⟩ :: all.map fun a => ⟨token, .message a⟩ := by
    rcases List.prefix_concat_iff.1 (hp.trans h) with he | he
    · exact (List.append_inj' he rfl).1
    · -- there is no end marker before the last one
      have := he.subset (List.mem_append_right _ (List.mem_singleton_self _))
      simp at this
  rw [← gather_stream, he, gather_messages]

namespace Sound

variable {fresh : Token → Prop} {asked asked' : List Token} {r r' : Reading}

theorem grow (H : r.Sound fresh asked output) (ha : asked <+: asked') (ho : output <+: output') :
    r.Sound fresh asked' output' := by
  obtain ⟨more, rfl⟩ := ho
  have htake : ∀ n ≤ output.length, (output ++ more).take n = output.take n :=
    fun n hn => List.take_append_of_le_length hn
  have hget : ∀ n e, output[n]? = some e → (output ++ more)[n]? = some e :=
    fun n e h => getElem?_mono (List.prefix_append _ _) h
  obtain ⟨t, phase⟩ := r
  match phase, H with
  | .fresh, _ => trivial
  | .asking request, H => exact getElem?_mono ha H
  | .collecting reader found, H =>
    intro hf
    obtain ⟨hl, h⟩ := H hf
    refine ⟨by rw [List.length_append]; exact Nat.le_add_right_of_le hl, ?_⟩
    rw [htake _ hl]
    exact h.imp_right fun ⟨hnil, hs⟩ => ⟨hnil, hget _ _ hs⟩
  | .finished (.ok all), ⟨n, hn, h⟩ =>
    refine ⟨n, hget _ _ hn, ?_⟩
    rw [htake _ (Nat.le_of_lt (List.getElem?_eq_some_iff.1 hn).1)]
    exact h
  | .finished (.error _), _ => trivial

/-- A reading that is sent to the start marker of its token stands there, and one that is sent to
the end marker begins with the first entry. -/
theorem hear {boundary : Marker} {log : Log AuthorisedResource} {o : TokenOffset}
    (h : fresh o.token → o.Points boundary output) :
    Sound fresh asked output
      ⟨o.token, .collecting (.new log (startOffset boundary o)) []⟩ := by
  intro hf
  obtain ⟨n, ⟨t, frame⟩, hn, he, rfl, hm⟩ := h hf
  cases boundary with
  | start =>
    cases frame with
    | start =>
      simp only [startOffset, Reader.new, hn, Int.ofNat_eq_natCast, Int.toNat_natCast]
      exact ⟨Nat.le_of_lt (List.getElem?_eq_some_iff.1 he).1, .inr ⟨trivial, he⟩⟩
    | message | finish => cases hm
  | finish => exact ⟨Nat.zero_le _, .inl rfl⟩

/-- Whether it has collected before or stands at a start marker, with the next entry a reading has
what one from the first entry on has. -/
theorem more {reader : Reader} {version : Nat} {found' : List AuthorisedResource}
    (H : Sound fresh asked output ⟨token, .collecting reader found⟩)
    (he : output[reader.position]? = some e) (hc : collect token found e = .more found') :
    Sound fresh asked output ⟨token, .collecting ⟨reader.position + 1, version⟩ found'⟩ := by
  intro hf
  obtain ⟨-, h⟩ := H hf
  refine ⟨(List.getElem?_eq_some_iff.1 he).1, .inl ?_⟩
  rw [List.take_add_one, he, Option.toList_some, gather_concat]
  rcases h with h | ⟨rfl, hs⟩
  · rw [← h, hc]
    rfl
  · cases he.symm.trans hs
    simp only [collect, if_true, Collected.more.injEq] at hc ⊢
    exact hc.symm

theorem complete {reader : Reader} (H : Sound fresh asked output ⟨token, .collecting reader found⟩)
    (he : output[reader.position]? = some e) (hc : collect token found e = .complete all) :
    Sound fresh asked output ⟨token, .finished (.ok all)⟩ := by
  obtain ⟨rfl, rfl⟩ := finish_of_complete hc
  refine ⟨_, he, fun hf => ?_⟩
  rcases (H hf).2 with h | ⟨-, hs⟩
  · exact h
  · cases he.symm.trans hs

/-- A reading goes on from what it is told, or from what stands at its place in the output. -/
theorem step {boundary : Marker} {c c' : Coordinator} {output : Log AuthorisedResource}
    (H : r.Sound fresh c.requests output.envelopes)
    (hk : c.Knows fun o => fresh o.token → o.Points boundary output.envelopes)
    (h : r.Stepped boundary c output r' c') : r'.Sound fresh c'.requests output.envelopes := by
  obtain ⟨t, phase⟩ := r
  cases h with
  | ask =>
    show (c.request t).requests[c.requests.length]? = some t
    rw [Coordinator.requests_request]
    simp
  | hear hp ha =>
    cases hp
    obtain ⟨hr, hpoints⟩ := hk.of_answerTo? ha
    cases hr.symm.trans H
    exact hear hpoints
  | more hp he hc =>
    cases hp
    obtain ⟨envelope, hx, rfl⟩ := Log.exists_of_read he
    exact H.more hx hc
  | complete hp he hc =>
    cases hp
    obtain ⟨envelope, hx, rfl⟩ := Log.exists_of_read he
    exact H.complete hx hc
  | fail | ended => trivial

theorem finish_of_finished (H : r.Sound fresh asked output) (hp : r.phase = .finished (.ok found)) :
    ⟨r.token, .finish⟩ ∈ stream r.token output := by
  obtain ⟨t, phase⟩ := r
  cases hp
  obtain ⟨n, hn, -⟩ := H
  exact mem_stream.2 ⟨List.mem_of_getElem? hn, rfl⟩

/-- A reading that is over has the messages of its token, if there is one part of these. -/
theorem eq_of_finished (H : r.Sound fresh asked output) (hp : r.phase = .finished (.ok found))
    (hf : fresh r.token) (h : stream r.token output <+:
      (⟨r.token, .start⟩ :: all.map fun a => ⟨r.token, .message a⟩) ++ [⟨r.token, .finish⟩]) :
    found = all := by
  obtain ⟨t, phase⟩ := r
  cases hp
  obtain ⟨n, hn, hfound⟩ := H
  rw [hfound hf, gather_take hn h]

end Sound

end Reading

end PolicyGate

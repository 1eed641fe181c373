/-
A fetch that is over stays as it is.

`fetch_done` is set deep inside the response reader while its callers go on, so
the statement is about every state an operation goes through, not only about the
state it ends in. `ingest_states` lists them for `ingest_tcp_payload`, with one
entry for each stored byte and each byte of the chunked decoder, and `Keeps` says
that the next state leaves alone what a caller sees of a fetch that is over.

Four places of the source do not stop: the TLS session writes to a fetch that is
over, a DHCP ACK clears its error, the loop over the 256-byte blocks behind the
header goes on after the decoder has stopped, and `page_gen` is counted once
more when the header and the end of the body come in one segment. `FreezeOk`
rules these out.
-/
import EveOS.Net.Effect
import EveOS.Net.Segments

set_option autoImplicit false

namespace EveOS.Net

/-! ## The states of a segment -/

section States

variable (dec : Decoders)

/-- The states of `ingest_chunked_bytes`, one for each byte it takes. -/
def HttpFetch.chunk_states : HttpFetch → Bytes → List HttpFetch
  | _, [] => []
  | s, b :: rest =>
    match s.chunk_byte dec b with
    | (s', true) => s' :: chunk_states s' rest
    | (s', false) => [s']

/-- The states of the loop over the blocks behind the header. -/
def HttpFetch.chunk_tail_states : Nat → HttpFetch → Bytes → List HttpFetch
  | 0, _, _ => []
  | blocks + 1, s, tail =>
    if tail = [] then []
    else s.chunk_states dec (tail.take 256)
      ++ chunk_tail_states blocks (s.ingest_chunked_bytes dec (tail.take 256)) (tail.drop 256)

/-- The states of the loop that stores the bytes behind the header. -/
def HttpFetch.push_states : HttpFetch → Bytes → List HttpFetch
  | _, [] => []
  | s, b :: rest => s.page_push_byte b :: push_states (s.page_push_byte b) rest

/-- The states of `begin_body`. -/
def HttpFetch.body_states (s : HttpFetch) (hdr_end : Nat) : List HttpFetch :=
  let s := { s with header_found := true }
  let headers := s.stream.take hdr_end
  let tail := s.stream.drop hdr_end
  if response_headers_chunked headers then
    let s := { s with http_chunked := true, chunk_phase := .SizeLine, chunk_line := [] }
    s :: s.chunk_tail_states dec tail.length tail
      ++ [(s.ingest_chunked_tail dec tail.length tail).header_taken]
  else
    match parse_content_encoding_layers headers with
    | none => [s.set_err "HTTP ENC"]
    | some layers =>
      let s := { s with
        body_layers := layers
        http_body_remaining :=
          (parse_content_length headers).map (fun cl => cl - min tail.length cl) }
      let t := tail.foldl HttpFetch.page_push_byte s
      s :: s.push_states tail ++
        if t.http_body_remaining = some 0 then
          [t.finish_fetch dec, (t.finish_fetch dec).header_taken]
        else [t.header_taken]

/-- The states of `append_to_page`: the bytes are copied at once. -/
def HttpFetch.append_states (s : HttpFetch) (data : Bytes) : List HttpFetch :=
  [s.push_bytes data, s.append_to_page dec data]

/-- The states `ingest_tcp_payload` goes through. -/
def HttpFetch.ingest_states (s : HttpFetch) (data : Bytes) : List HttpFetch :=
  if !s.header_found then
    let s := { s with stream := s.stream ++ data.take (STREAM_CAP - s.stream.length) }
    match find_http_header_end s.stream with
    | none => s :: if STREAM_CAP ≤ s.stream.length then [s.set_err "HTTP HDR TOO BIG"] else []
    | some (pos, sep_len) => s :: s.body_states dec (pos + sep_len)
  else if s.http_chunked then s.chunk_states dec data
  else s.append_states dec data

/-- The states of an effect. -/
def HttpEffect.states (s : HttpFetch) : HttpEffect → List HttpFetch
  | .ingest data false => s.ingest_states dec data
  | .ingest data true =>
    s.ingest_states dec data
      ++ [(s.ingest_tcp_payload dec data).finish_plain_http_on_tcp_eof dec]
  | e => [e.act dec s]

/-! They end where the function ends. -/

theorem getLastD_append (l m : List HttpFetch) (s : HttpFetch) :
    (l ++ m).getLastD s = m.getLastD (l.getLastD s) := by
  cases m with
  | nil => simp
  | cons t m => simp [List.getLastD_eq_getLast?]

theorem chunk_states_last (s : HttpFetch) (data : Bytes) :
    (s.chunk_states dec data).getLastD s = s.ingest_chunked_bytes dec data := by
  induction data generalizing s with
  | nil => rfl
  | cons b rest ih =>
    simp only [HttpFetch.chunk_states, HttpFetch.ingest_chunked_bytes]
    rcases s.chunk_byte dec b with ⟨s', _ | _⟩
    · rfl
    · dsimp only
      rw [List.getLastD_cons]
      exact ih s'

theorem body_states_last (s : HttpFetch) (hdr_end : Nat) :
    (s.body_states dec hdr_end).getLastD s = s.begin_body dec hdr_end := by
  unfold HttpFetch.body_states HttpFetch.begin_body
  dsimp only
  split_ifs
  · rw [getLastD_append]
    rfl
  · cases parse_content_encoding_layers (s.stream.take hdr_end) with
    | none => rfl
    | some layers =>
      dsimp only
      rw [getLastD_append]
      unfold HttpFetch.begin_identity
      dsimp only
      split_ifs <;> rfl

theorem ingest_states_last (s : HttpFetch) (data : Bytes) :
    (s.ingest_states dec data).getLastD s = s.ingest_tcp_payload dec data := by
  unfold HttpFetch.ingest_states HttpFetch.ingest_tcp_payload
  split_ifs
  · unfold HttpFetch.ingest_header_bytes
    dsimp only
    cases hf : find_http_header_end (s.stream ++ data.take (STREAM_CAP - s.stream.length)) with
    | none =>
      dsimp only
      split_ifs <;> rfl
    | some r =>
      dsimp only
      rw [List.getLastD_cons]
      exact body_states_last dec _ _
  · exact chunk_states_last dec s data
  · rfl

/-- **The states of an effect end in its result.** -/
theorem effect_states_last (s : HttpFetch) (e : HttpEffect) :
    (e.states dec s).getLastD s = e.act dec s := by
  cases e with
  | ingest data fin =>
    cases fin with
    | false => exact ingest_states_last dec s data
    | true =>
      show (_ ++ [_] : List HttpFetch).getLastD s = _
      rw [getLastD_append]
      rfl
  | _ => rfl

end States

/-! ## What stays -/

/-- What a caller sees of a fetch that is over. -/
structure Settled where
  page : Bytes
  page_truncated : Bool
  fetch_err : Bytes
  page_gen : UInt32
  deriving DecidableEq

def HttpFetch.settled (s : HttpFetch) : Settled := { s with }

/-- If the fetch is over in `s`, then it is in `t`, and nothing has changed. -/
def Keeps (s t : HttpFetch) : Prop :=
  s.fetch_done = true → t.fetch_done = true ∧ t.settled = s.settled

instance (s t : HttpFetch) : Decidable (Keeps s t) := inferInstanceAs (Decidable (_ → _ ∧ _))

theorem Keeps.refl (s : HttpFetch) : Keeps s s := fun h => ⟨h, rfl⟩

theorem Keeps.trans {s t u : HttpFetch} (h₁ : Keeps s t) (h₂ : Keeps t u) : Keeps s u := by
  intro h
  obtain ⟨hd, hs⟩ := h₁ h
  obtain ⟨hd', hs'⟩ := h₂ hd
  exact ⟨hd', hs'.trans hs⟩

instance : IsTrans HttpFetch Keeps := ⟨fun _ _ _ => Keeps.trans⟩

/-- Nothing is asked of a step from a fetch that is not over. -/
theorem keeps_of_open {s : HttpFetch} (h : s.fetch_done = false) (t : HttpFetch) : Keeps s t := by
  intro hd
  rw [h] at hd
  cases hd

/-- Along the states `l` behind `s`, a fetch that is over stays as it is. -/
def Settles (s : HttpFetch) (l : List HttpFetch) : Prop := List.IsChain Keeps (s :: l)

theorem settles_cons {s t : HttpFetch} {l : List HttpFetch} (h : Keeps s t) (hl : Settles t l) :
    Settles s (t :: l) := List.isChain_cons_cons.mpr ⟨h, hl⟩

theorem settles_append {s : HttpFetch} {l m : List HttpFetch} (hl : Settles s l)
    (hm : Settles (l.getLastD s) m) : Settles s (l ++ m) := by
  induction l generalizing s with
  | nil => exact hm
  | cons t l ih =>
    obtain ⟨hst, htl⟩ := List.isChain_cons_cons.mp hl
    rw [List.getLastD_cons] at hm
    exact settles_cons hst (ih htl hm)

theorem settles_one {s u : HttpFetch} (h : Keeps s u) : Settles s [u] :=
  settles_cons h (List.isChain_singleton u)

/-- States that are all open, and one more. -/
theorem settles_open {s : HttpFetch} (hs : s.fetch_done = false) {l : List HttpFetch}
    (hl : ∀ t ∈ l, t.fetch_done = false) (u : HttpFetch) : Settles s (l ++ [u]) := by
  induction l generalizing s with
  | nil => exact settles_one (keeps_of_open hs u)
  | cons t l ih =>
    apply settles_cons (keeps_of_open hs t)
    exact ih (hl t List.mem_cons_self) fun u hu => hl u (List.mem_cons_of_mem _ hu)

/-! ## One segment -/

section Segment

variable (dec : Decoders)

/-- The end of the header does not bring the end of the body with it. -/
def HeaderOpen (headers tail : Bytes) : Prop :=
  if response_headers_chunked headers then (chunk_walk .start tail).stop = none
  else parse_content_encoding_layers headers = none
    ∨ ∀ cl ∈ parse_content_length headers, tail.length < cl

/-- If the segment ends the header, then not the body too. -/
def HttpFetch.StaysOpen (s : HttpFetch) (seg : Bytes) : Prop :=
  s.header_found = false →
    ∀ r ∈ find_http_header_end (s.stream ++ seg.take (STREAM_CAP - s.stream.length)),
      HeaderOpen ((s.stream ++ seg.take (STREAM_CAP - s.stream.length)).take (r.1 + r.2))
        ((s.stream ++ seg.take (STREAM_CAP - s.stream.length)).drop (r.1 + r.2))

instance (headers tail : Bytes) : Decidable (HeaderOpen headers tail) :=
  inferInstanceAs (Decidable (if response_headers_chunked headers then _ else _ ∨ ∀ cl ∈ _, _))

instance (s : HttpFetch) (seg : Bytes) : Decidable (s.StaysOpen seg) :=
  inferInstanceAs (Decidable (_ → ∀ r ∈ _, _))

theorem page_push_byte_done (s : HttpFetch) (b : UInt8) :
    (s.page_push_byte b).fetch_done = s.fetch_done := by
  unfold HttpFetch.page_push_byte
  split_ifs <;> rfl

/-- A byte behind which the decoder goes on. -/
theorem chunk_byte_open {s : HttpFetch} (hd : s.fetch_done = false) {b : UInt8} {s' : HttpFetch}
    (h : s.chunk_byte dec b = (s', true)) : s'.fetch_done = false := by
  rw [chunk_byte_eq] at h
  cases hm : chunk_next s.chunkPos b with
  | go c =>
    rw [hm] at h
    simp only [HttpFetch.chunk_act, Prod.mk.injEq, and_true] at h
    rw [← h]
    exact hd
  | put c =>
    rw [hm] at h
    simp only [HttpFetch.chunk_act, Prod.mk.injEq, and_true] at h
    rw [← h]
    exact (page_push_byte_done s b).trans hd
  | stop c r =>
    rw [hm] at h
    simp [HttpFetch.chunk_act] at h

theorem chunk_states_settles {s : HttpFetch} (hd : s.fetch_done = false) (data : Bytes) :
    Settles s (s.chunk_states dec data) := by
  induction data generalizing s with
  | nil => exact List.isChain_singleton s
  | cons b rest ih =>
    simp only [HttpFetch.chunk_states]
    rcases hb : s.chunk_byte dec b with ⟨s', _ | _⟩
    · exact settles_one (keeps_of_open hd s')
    · exact settles_cons (keeps_of_open hd s') (ih (chunk_byte_open dec hd hb))

/-- As long as the walk goes on, the fetch does. -/
theorem chunk_states_open {s : HttpFetch} (hd : s.fetch_done = false) {data : Bytes}
    (hgo : (chunk_walk s.chunkPos data).stop = none) :
    ∀ t ∈ s.chunk_states dec data, t.fetch_done = false := by
  induction data generalizing s with
  | nil => exact nofun
  | cons b rest ih =>
    -- the decoder moves where the walk does
    have hmove : ∀ {c : ChunkPos} {s' : HttpFetch}, s'.chunkPos = c →
        s.chunk_byte dec b = (s', true) → (chunk_walk c rest).stop = none →
        ∀ t ∈ s.chunk_states dec (b :: rest), t.fetch_done = false := by
      intro c s' hc hb hrest t ht
      simp only [HttpFetch.chunk_states, hb, List.mem_cons] at ht
      have hs' := chunk_byte_open dec hd hb
      rcases ht with rfl | ht
      · exact hs'
      · subst hc
        exact ih hs' hrest t ht
    simp only [chunk_walk] at hgo
    cases hm : chunk_next s.chunkPos b with
    | go c =>
      rw [hm] at hgo
      exact hmove (c := c) rfl (by rw [chunk_byte_eq, hm]; rfl) hgo
    | put c =>
      rw [hm] at hgo
      exact hmove (c := c) rfl (by rw [chunk_byte_eq, hm]; rfl) hgo
    | stop c r =>
      rw [hm] at hgo
      cases hgo

theorem chunk_tail_states_open (blocks : Nat) {s : HttpFetch} (hd : s.fetch_done = false)
    {tail : Bytes} (hgo : (chunk_walk s.chunkPos tail).stop = none) :
    ∀ t ∈ s.chunk_tail_states dec blocks tail, t.fetch_done = false := by
  induction blocks generalizing s tail with
  | zero => exact nofun
  | succ blocks ih =>
    simp only [HttpFetch.chunk_tail_states]
    split_ifs with hnil
    · exact nofun
    rw [← List.take_append_drop 256 tail] at hgo
    cases hblock : (chunk_walk s.chunkPos (tail.take 256)).stop with
    | some r =>
      rw [chunk_walk_append_stop _ _ _ hblock, hblock] at hgo
      cases hgo
    | none =>
      rw [chunk_walk_append _ _ _ hblock] at hgo
      have hnext : s.ingest_chunked_bytes dec (tail.take 256)
          = (s.push_bytes (chunk_walk s.chunkPos (tail.take 256)).out).moveTo
            (chunk_walk s.chunkPos (tail.take 256)).pos := by
        rw [ingest_chunked_bytes_eq]
        exact apply_walk_going dec s _ hblock
      have hd' : (s.ingest_chunked_bytes dec (tail.take 256)).fetch_done = false := by
        rw [hnext, push_bytes_eq]
        exact hd
      intro t ht
      rcases List.mem_append.mp ht with ht | ht
      · exact chunk_states_open dec hd hblock t ht
      · refine ih hd' ?_ t ht
        rw [hnext]
        exact hgo

theorem push_states_open {s : HttpFetch} (hd : s.fetch_done = false) (data : Bytes) :
    ∀ t ∈ s.push_states data, t.fetch_done = false := by
  induction data generalizing s with
  | nil => exact nofun
  | cons b rest ih =>
    have hb := (page_push_byte_done s b).trans hd
    intro t ht
    rcases List.mem_cons.mp ht with rfl | ht
    · exact hb
    · exact ih hb t ht

/-- The header and the bytes behind it. -/
theorem body_states_settles {s : HttpFetch} (hd : s.fetch_done = false) (hdr_end : Nat)
    (hopen : HeaderOpen (s.stream.take hdr_end) (s.stream.drop hdr_end)) :
    Settles s (s.body_states dec hdr_end) := by
  unfold HeaderOpen at hopen
  unfold HttpFetch.body_states
  dsimp only
  by_cases hc : response_headers_chunked (s.stream.take hdr_end) = true
  · rw [if_pos hc] at hopen ⊢
    apply settles_open hd
    intro t ht
    rcases List.mem_cons.mp ht with rfl | ht
    · exact hd
    · exact chunk_tail_states_open dec _ (s := { s with
        header_found := true
        http_chunked := true
        chunk_phase := .SizeLine
        chunk_line := [] }) hd hopen t ht
  · rw [if_neg hc] at hopen ⊢
    cases hl : parse_content_encoding_layers (s.stream.take hdr_end) with
    | none => exact settles_one (keeps_of_open hd _)
    | some layers =>
      have hlen : ∀ cl ∈ parse_content_length (s.stream.take hdr_end),
          (s.stream.drop hdr_end).length < cl := by
        rcases hopen with h | h
        · rw [hl] at h
          cases h
        · exact h
      dsimp only
      rw [if_neg]
      · apply settles_open hd
        intro t ht
        rcases List.mem_cons.mp ht with rfl | ht
        · exact hd
        · exact push_states_open (s := { s with
            header_found := true
            body_layers := layers
            http_body_remaining := _ }) hd _ t ht
      · -- the body is not complete yet
        rw [← HttpFetch.push_bytes, push_bytes_remaining]
        intro hzero
        obtain ⟨cl, hcl, hrem⟩ := Option.map_eq_some_iff.mp hzero
        have := hlen cl hcl
        omega

/-- **What a segment does to a fetch that is not over.** -/
theorem ingest_states_settles {s : HttpFetch} (hd : s.fetch_done = false) {data : Bytes}
    (hopen : s.StaysOpen data) : Settles s (s.ingest_states dec data) := by
  unfold HttpFetch.ingest_states
  by_cases hf : s.header_found = true
  · rw [if_neg (by simp [hf])]
    split_ifs
    · exact chunk_states_settles dec hd data
    · have hpush : ∀ t ∈ [s.push_bytes data], t.fetch_done = false := by
        intro t ht
        rw [List.mem_singleton] at ht
        rw [ht, push_bytes_eq]
        exact hd
      exact settles_open hd hpush _
  · rw [Bool.not_eq_true] at hf
    rw [if_pos (by simp [hf])]
    dsimp only
    have hopen' := hopen hf
    cases hfind : find_http_header_end (s.stream ++ data.take (STREAM_CAP - s.stream.length)) with
    | none =>
      apply settles_cons (keeps_of_open hd _)
      split_ifs
      · apply settles_one
        apply keeps_of_open
        exact hd
      · exact List.isChain_singleton _
    | some r =>
      apply settles_cons (keeps_of_open hd _)
      exact body_states_settles dec (s := { s with
        stream := s.stream ++ data.take (STREAM_CAP - s.stream.length) }) hd _ (hopen' r hfind)

end Segment

/-! ## One operation -/

section Run

variable (env : Env)

/-- The operation belongs to the same fetch and the same settings. -/
def Op.staysWith (s : NetStack) : Op → Bool
  | .start_fetch _ | .reset_demo => false
  | .drive_begin settings => settings.ip_settings_tag = s.ip_settings_tag
  | _ => true

theorem staysWith_not_start {s : NetStack} {op : Op} (h : op.staysWith s = true) :
    op.isStart = false := by
  cases op with
  | start_fetch url => cases h
  | _ => rfl

/-- The effect does not end the body together with the header. -/
def HttpEffect.StaysOpen (s : HttpFetch) : HttpEffect → Prop
  | .ingest data _ => s.StaysOpen data
  | _ => True

instance (s : HttpFetch) : (e : HttpEffect) → Decidable (e.StaysOpen s)
  | .ingest data _ => inferInstanceAs (Decidable (s.StaysOpen data))
  | .keep | .fail _ | .eof | .clear_err | .clear | .start => isTrue trivial

/-- The condition on an operation: a fetch that is over is not written to by a
TLS session, and no DHCP ACK clears its error; a fetch that is not over does not
get the end of its header and the end of its body at once. -/
def FreezeOk (x : Node) (op : Op) : Prop :=
  if x.1.fetch_done then
    ¬ (op.writesTls = true ∧ x.1.tls_poll = true)
      ∧ (op.effect env x = .clear_err → x.1.fetch_err = [])
  else (op.effect env x).StaysOpen x.1.toHttpFetch

instance (x : Node) (op : Op) : Decidable (FreezeOk env x op) :=
  inferInstanceAs (Decidable (if x.1.fetch_done then _ ∧ (_ → _) else _))

/-- A fetch that is over is not armed. -/
def NetStack.Disarmed (s : NetStack) : Prop := s.fetch_done = true → s.fetch_armed = false

theorem disarmed_flags {s t : HttpFetch} (hf : s.FlagsFrom t)
    (h : s.fetch_done = true → s.fetch_armed = false) : t.fetch_done = true → t.fetch_armed = false := by
  intro hd
  rcases hf with ⟨ha, hd'⟩ | ⟨ha, -⟩
  · rw [ha]
    exact h (hd'.symm.trans hd)
  · exact ha

theorem disarmed_step (x : Node) (op : Op) (h : x.1.Disarmed) : (Node.step env x op).1.Disarmed := by
  have hon : (op.effectOn x.1.toHttpFetch).fetch_done = true →
      (op.effectOn x.1.toHttpFetch).fetch_armed = false := by
    cases op with
    | start_fetch url => exact nofun
    | _ => exact h
  show (Node.step env x op).1.toHttpFetch.fetch_done = true → _
  rw [step_http]
  cases op.effect env x with
  | keep => exact hon
  | fail msg => exact fun _ => rfl
  | ingest data fin =>
    have hin := disarmed_flags (ingest_reads env.dec _ data).flags hon
    cases fin with
    | false => exact hin
    | true => exact disarmed_flags (eof_reads env.dec _).flags hin
  | eof => exact disarmed_flags (eof_reads env.dec _).flags hon
  | clear_err => exact hon
  | clear => exact nofun
  | start => exact nofun

/-- The end of the connection changes nothing any more. -/
theorem keeps_eof (dec : Decoders) (s : HttpFetch) : Keeps s (s.finish_plain_http_on_tcp_eof dec) := by
  cases hd : s.fetch_done with
  | true =>
    rw [eof_over dec hd]
    exact Keeps.refl s
  | false => exact keeps_of_open hd _

/-- An operation on a fetch that is over. -/
theorem over_settles {x : Node} {op : Op} (hinv : x.1.Disarmed) (hstay : op.staysWith x.1 = true)
    (hok : FreezeOk env x op) (hd : x.1.fetch_done = true) :
    Settles x.1.toHttpFetch ((op.effect env x).states env.dec x.1.toHttpFetch) := by
  have harm := hinv hd
  unfold FreezeOk at hok
  rw [if_pos hd] at hok
  obtain ⟨htls, hack⟩ := hok
  have hcause := effect_cause env x op
  have hsame : ∀ u : HttpFetch, u = x.1.toHttpFetch → Settles x.1.toHttpFetch [u] := by
    rintro u rfl
    exact settles_one (Keeps.refl _)
  cases he : op.effect env x with
  | keep => exact hsame _ rfl
  | fail msg =>
    rw [he] at hcause
    rcases hcause.2 with h | h | h
    · rw [harm] at h
      cases h
    · rw [staysWith_not_start hstay] at h
      cases h
    · exact absurd h.symm htls
  | ingest data fin =>
    rw [he] at hcause
    rcases hcause with ⟨hp, rfl⟩ | ⟨-, seg, hseg, -⟩
    · exact absurd ⟨rfl, hp⟩ htls
    · rw [(segment_armed hseg).1] at harm
      cases harm
  | eof => exact settles_one (keeps_eof env.dec _)
  | clear_err =>
    apply hsame
    show { x.1.toHttpFetch with fetch_err := [] } = x.1.toHttpFetch
    rw [← hack he]
  | clear =>
    rw [he] at hcause
    rcases hcause with rfl | ⟨settings, rfl, htag⟩
    · cases hstay
    · exact absurd (by simpa [Op.staysWith] using hstay) htag
  | start =>
    rw [he] at hcause
    obtain ⟨url, rfl⟩ := hcause
    cases hstay

/-- An operation on a fetch that is not over. -/
theorem open_settles (dec : Decoders) {s : HttpFetch} {e : HttpEffect} (hok : e.StaysOpen s)
    (hd : s.fetch_done = false) : Settles s (e.states dec s) := by
  cases e with
  | ingest data fin =>
    have hin := ingest_states_settles dec hd hok
    cases fin with
    | false => exact hin
    | true =>
      apply settles_append hin
      rw [ingest_states_last]
      exact settles_one (keeps_eof dec _)
  | _ => exact settles_one (keeps_of_open hd _)

theorem step_settles {x : Node} {op : Op} (hinv : x.1.Disarmed) (hstay : op.staysWith x.1 = true)
    (hok : FreezeOk env x op) :
    Settles x.1.toHttpFetch ((op.effect env x).states env.dec x.1.toHttpFetch) := by
  cases hd : x.1.fetch_done with
  | true => exact over_settles env hinv hstay hok hd
  | false =>
    unfold FreezeOk at hok
    rw [if_neg (by simp [hd])] at hok
    exact open_settles env.dec hok hd

/-! ## Runs -/

/-- The states of the response behind `x` in a run. -/
def run_states : Node → List Op → List HttpFetch
  | _, [] => []
  | x, op :: ops =>
    (op.effect env x).states env.dec x.1.toHttpFetch ++ run_states (Node.step env x op) ops

theorem step_states_last {x : Node} {op : Op} (hstay : op.staysWith x.1 = true) :
    ((op.effect env x).states env.dec x.1.toHttpFetch).getLastD x.1.toHttpFetch
      = (Node.step env x op).1.toHttpFetch := by
  rw [effect_states_last, step_http, effectOn_of_not_start (staysWith_not_start hstay)]

/-- The states of a run end in the state it ends in. -/
theorem run_states_last (x : Node) (ops : List Op)
    (hstay : Along (Node.step env) (fun y op => op.staysWith y.1 = true) x ops) :
    (run_states env x ops).getLastD x.1.toHttpFetch = (run (Node.step env) x ops).1.toHttpFetch := by
  induction ops generalizing x with
  | nil => rfl
  | cons op ops ih =>
    simp only [run_states, run_cons]
    rw [getLastD_append, step_states_last env hstay.1]
    exact ih _ hstay.2

theorem run_settles (x : Node) (ops : List Op) (hinv : x.1.Disarmed)
    (hstay : Along (Node.step env) (fun y op => op.staysWith y.1 = true) x ops)
    (hok : Along (Node.step env) (FreezeOk env) x ops) :
    Settles x.1.toHttpFetch (run_states env x ops) := by
  induction ops generalizing x with
  | nil => exact List.isChain_singleton _
  | cons op ops ih =>
    apply settles_append (step_settles env hinv hstay.1 hok.1)
    rw [step_states_last env hstay.1]
    exact ih _ (disarmed_step env x op hinv) hstay.2 hok.2

/-- **A settled fetch is frozen.** From every state reached from the initial one,
in every run with unchanged settings and without another fetch whose operations
are `FreezeOk`: once the fetch is over in one of the states the run goes through,
the page, its truncation flag, the error and the generation are the same in all
later ones. -/
theorem settled_fetch_is_frozen (vio : AnyNic) (before after : List Op) :
    let x := run (Node.step env) (NetStack.static_initial, vio) before
    Along (Node.step env) (fun y op => op.staysWith y.1 = true) x after →
    Along (Node.step env) (FreezeOk env) x after →
      (x.1.toHttpFetch :: run_states env x after).Pairwise Keeps
      ∧ (run_states env x after).getLastD x.1.toHttpFetch
          = (run (Node.step env) x after).1.toHttpFetch := by
  intro x hstay hok
  have hinv : x.1.Disarmed :=
    run_preserves (I := fun y : Node => y.1.Disarmed) (disarmed_step env) (fun _ => rfl) before
  refine ⟨?_, run_states_last env x after hstay⟩
  exact List.isChain_iff_pairwise.mp (run_settles env x after hinv hstay hok)

end Run

/-! ### Concrete runs -/

/-- A fetch up to the header of its response. -/
def header_run : List Op :=
  [.start_fetch (ascii "http://10.0.2.2/"), .rx (gateway_frame 80 1000 0x12 []),
    .rx (gateway_frame 80 1001 0x18 (ascii "HTTP/1.0 200 OK\r\nContent-Length: 2\r\n\r\n"))]

/-- The body, a second copy of it, and the end of the connection. -/
def body_run : List Op :=
  [.rx (gateway_frame 80 1040 0x18 (ascii "hi")), .rx (gateway_frame 80 1040 0x18 (ascii "hi")),
    .rx (gateway_frame 80 1042 0x11 [])]

theorem body_run_is_frozen :
    let x := run (Node.step .qemu) (NetStack.static_initial, .lossless) header_run
    (x.1.toHttpFetch :: run_states .qemu x body_run).Pairwise Keeps
      ∧ (run_states .qemu x body_run).getLastD x.1.toHttpFetch
          = (run (Node.step .qemu) x body_run).1.toHttpFetch :=
  settled_fetch_is_frozen .qemu .lossless header_run body_run (by decide) (by decide)

/-- A chunk that does not end in a line break, and one more behind the 256 bytes
of its block. -/
def broken_chunk : Bytes :=
  ascii "1\r\naX" ++ List.replicate 251 120 ++ ascii "\n1\nb"

/-- Its response, in one segment. -/
def broken_chunk_run : List Op :=
  [.rx (gateway_frame 80 1001 0x18
    (ascii "HTTP/1.0 200 OK\r\nTransfer-Encoding: chunked\r\n\r\n" ++ broken_chunk))]

/-- The decoder reports the broken chunk, and then the next block stores a byte. -/
theorem broken_chunk_run_grows :
    let x := run (Node.step .qemu) (NetStack.static_initial, .lossless)
      [.start_fetch (ascii "http://10.0.2.2/"), .rx (gateway_frame 80 1000 0x12 [])]
    Along (Node.step .qemu) (fun y op => op.staysWith y.1 = true) x broken_chunk_run
      ∧ ¬ (x.1.toHttpFetch :: run_states .qemu x broken_chunk_run).Pairwise Keeps
      ∧ (run (Node.step .qemu) x broken_chunk_run).1.page = ascii "ab" := by
  decide +kernel

end EveOS.Net

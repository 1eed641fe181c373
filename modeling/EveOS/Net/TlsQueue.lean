/-
The TLS receive queue in its buffer.

`Rx` and `Drive` keep the bytes received and not yet popped as a list. Here they stand in
`tls_cipher_in`, between two offsets, and are moved to its front at three times: when the
queue has run empty, when much of the buffer has been read, and when data does not fit
behind them. `CipherQueue.Holds` says which bytes are queued.
-/
import EveOS.Lib.Buffer
import EveOS.Lib.Fifo
import EveOS.Net.Drive

set_option autoImplicit false

namespace EveOS.Net

/-! ## The kernel -/

/-- `usize::saturating_add`. -/
def saturating_add (a b : Nat) : Nat := min (a + b) USIZE_MAX

structure CipherQueue where
  tls_cipher_in : Bytes
  tls_cipher_off : Nat
  tls_cipher_len : Nat

namespace CipherQueue

/-- An empty queue, whatever the buffer holds. -/
def start (buf : Vector UInt8 TLS_CIPHER_RX_CAP) : CipherQueue := ⟨buf.toList, 0, 0⟩

def tls_cipher_compact (s : CipherQueue) : Option CipherQueue :=
  if s.tls_cipher_off = 0 then some s
  else do
    let rem := s.tls_cipher_len - s.tls_cipher_off
    let buf ←
      (if 0 < rem then copy_within? s.tls_cipher_in s.tls_cipher_off s.tls_cipher_len 0
       else some s.tls_cipher_in)
    return ⟨buf, 0, rem⟩

def tls_cipher_append (s : CipherQueue) (data : Bytes) : Option (CipherQueue × Bool) := do
  let s ←
    (if s.tls_cipher_in.length < saturating_add s.tls_cipher_len data.length then s.tls_cipher_compact
     else some s)
  if s.tls_cipher_in.length < saturating_add s.tls_cipher_len data.length then return (s, false)
  else
    let buf ← write? s.tls_cipher_in s.tls_cipher_len data
    return ({ s with tls_cipher_in := buf, tls_cipher_len := s.tls_cipher_len + data.length }, true)

/-- `tls_cipher_pop`: the queue, the caller's buffer and the number of bytes put there. -/
def tls_cipher_pop (s : CipherQueue) (buf : Bytes) : Option (CipherQueue × Bytes × Nat) :=
  let avail := s.tls_cipher_len - s.tls_cipher_off
  if avail = 0 then some (s, buf, 0)
  else do
    let n := min avail buf.length
    let front ← slice? s.tls_cipher_in s.tls_cipher_off (s.tls_cipher_off + n)
    let buf ← write? buf 0 front
    let s := { s with tls_cipher_off := s.tls_cipher_off + n }
    let s ←
      (if s.tls_cipher_len ≤ s.tls_cipher_off then some { s with tls_cipher_off := 0, tls_cipher_len := 0 }
       else if 24576 < s.tls_cipher_off then s.tls_cipher_compact
       else some s)
    return (s, buf, n)

/-- `&tls_cipher_in[tls_cipher_off..tls_cipher_len]`. -/
def pending (s : CipherQueue) : Bytes := slice s.tls_cipher_in s.tls_cipher_off s.tls_cipher_len

end CipherQueue

/-- A call, with the data or with the buffer to pop into. -/
inductive QueueCall
  | append (data : Bytes)
  | pop (buf : Bytes)

def QueueCall.fifo : QueueCall → FifoCall UInt8
  | .append data => .append data
  | .pop buf => .pop buf.length

/-- What a call does, and what its caller gets. -/
def CipherQueue.step (s : CipherQueue) : QueueCall → Option (CipherQueue × FifoReply UInt8)
  | .append data => do
    let (s, ok) ← s.tls_cipher_append data
    return (s, .appended ok)
  | .pop buf => do
    let (s, buf, n) ← s.tls_cipher_pop buf
    return (s, .popped (buf.take n))

/-! ## What is queued -/

/-- The bytes `q` are queued: they stand between the offsets. -/
def CipherQueue.Holds (s : CipherQueue) (q : Bytes) : Prop :=
  ∃ p r, s.tls_cipher_in = p ++ (q ++ r) ∧ s.tls_cipher_off = p.length ∧
    s.tls_cipher_len = p.length + q.length ∧ s.tls_cipher_in.length = TLS_CIPHER_RX_CAP

section Holds

variable {s : CipherQueue} {q : Bytes}

theorem CipherQueue.Holds.pending_eq (h : s.Holds q) : s.pending = q := by
  obtain ⟨p, r, hbuf, hoff, hlen, -⟩ := h
  rw [CipherQueue.pending, slice, hbuf, hoff, hlen, List.drop_left, Nat.add_sub_cancel_left, List.take_left]

theorem CipherQueue.Holds.rem (h : s.Holds q) : s.tls_cipher_len - s.tls_cipher_off = q.length := by
  obtain ⟨p, r, -, hoff, hlen, -⟩ := h
  omega

theorem holds_start (buf : Vector UInt8 TLS_CIPHER_RX_CAP) : (CipherQueue.start buf).Holds [] :=
  ⟨[], buf.toList, rfl, rfl, rfl, Vector.length_toList⟩

/-- **Compaction** moves the queue to the front. -/
theorem tls_cipher_compact_returns (h : s.Holds q) :
    Returns s.tls_cipher_compact fun t => t.Holds q ∧ t.tls_cipher_off = 0 := by
  have hrem := h.rem
  obtain ⟨p, r, hbuf, hoff, hlen, hcap⟩ := h
  unfold CipherQueue.tls_cipher_compact
  by_cases hzero : s.tls_cipher_off = 0
  · rw [if_pos hzero]
    exact .ret ⟨⟨p, r, hbuf, hoff, hlen, hcap⟩, hzero⟩
  rw [if_neg hzero]
  dsimp only
  rw [hrem]
  by_cases hq : 0 < q.length
  · have hlength : (q ++ (p ++ (q ++ r)).drop q.length).length = TLS_CIPHER_RX_CAP := by
      rw [← hcap, hbuf]
      simp only [List.length_append, List.length_drop]
      omega
    rw [if_pos hq, hbuf, hoff, hlen, copy_within?_front]
    exact .ret ⟨⟨[], _, rfl, rfl, (Nat.zero_add _).symm, hlength⟩, rfl⟩
  · obtain rfl : q = [] := List.length_eq_zero_iff.mp (by omega)
    rw [if_neg hq]
    exact .ret ⟨⟨[], s.tls_cipher_in, rfl, rfl, rfl, hcap⟩, rfl⟩

theorem saturating_add_gt (a b : Nat) : TLS_CIPHER_RX_CAP < saturating_add a b ↔ TLS_CIPHER_RX_CAP < a + b := by
  have hcap : TLS_CIPHER_RX_CAP < USIZE_MAX := by decide
  unfold saturating_add
  omega

/-- Data that fits behind the queue. -/
theorem write_behind (h : s.Holds q) {data : Bytes} (hroom : s.tls_cipher_len + data.length ≤ TLS_CIPHER_RX_CAP) :
    Returns (write? s.tls_cipher_in s.tls_cipher_len data) fun buf =>
      CipherQueue.Holds { s with tls_cipher_in := buf, tls_cipher_len := s.tls_cipher_len + data.length }
        (q ++ data) := by
  obtain ⟨p, r, hbuf, hoff, hlen, hcap⟩ := h
  have hr : data.length ≤ r.length := by
    have hall := congrArg List.length hbuf
    simp only [List.length_append] at hall
    omega
  have hsplit : s.tls_cipher_in = (p ++ q) ++ (r.take data.length ++ r.drop data.length) := by
    rw [List.take_append_drop, hbuf, List.append_assoc]
  have hat : s.tls_cipher_len = (p ++ q).length := by rw [hlen, List.length_append]
  have htake : data.length = (r.take data.length).length := by
    rw [List.length_take]
    omega
  rw [hsplit, hat, write?_part (p ++ q) (r.drop data.length) htake]
  refine .ret ⟨p, r.drop data.length, ?_, hoff, ?_, ?_⟩
  · simp only [List.append_assoc]
  · simp only [List.length_append]
    omega
  · rw [← hcap, hbuf]
    simp only [List.length_append, List.length_drop]
    omega

/-- **An append** is refused if and only if the data does not fit beside the queue. -/
theorem tls_cipher_append_returns (h : s.Holds q) (data : Bytes) :
    Returns (s.tls_cipher_append data) fun r =>
      if TLS_CIPHER_RX_CAP < q.length + data.length then r.1.Holds q ∧ r.2 = false
      else r.1.Holds (q ++ data) ∧ r.2 = true := by
  have hcap : ∀ {t : CipherQueue}, t.Holds q → t.tls_cipher_in.length = TLS_CIPHER_RX_CAP := by
    rintro t ⟨p, r, -, -, -, hcap⟩
    exact hcap
  -- behind the first test there is room, or the queue stands at the front
  have hfirst : Returns (if s.tls_cipher_in.length < saturating_add s.tls_cipher_len data.length then
      s.tls_cipher_compact else some s) fun t => t.Holds q ∧
        (TLS_CIPHER_RX_CAP < t.tls_cipher_len + data.length ↔ TLS_CIPHER_RX_CAP < q.length + data.length) := by
    simp only [hcap h, saturating_add_gt]
    split_ifs with hfull
    · refine (tls_cipher_compact_returns h).mono ?_
      rintro t ⟨ht, hoff⟩
      have hrem := ht.rem
      rw [hoff, Nat.sub_zero] at hrem
      exact ⟨ht, by rw [hrem]⟩
    · have hrem := h.rem
      exact .ret ⟨h, by omega⟩
  refine hfirst.bind ?_
  rintro t ⟨ht, hiff⟩
  simp only [hcap ht, saturating_add_gt]
  by_cases hfull : TLS_CIPHER_RX_CAP < t.tls_cipher_len + data.length
  · rw [if_pos hfull]
    refine .ret ?_
    rw [if_pos (hiff.mp hfull)]
    exact ⟨ht, rfl⟩
  · rw [if_neg hfull]
    refine (write_behind ht (Nat.not_lt.mp hfull)).bind ?_
    intro buf hbuf
    refine .ret ?_
    rw [if_neg (fun hq => hfull (hiff.mpr hq))]
    exact ⟨hbuf, rfl⟩

/-- **A pop** gets the front of the queue. -/
theorem tls_cipher_pop_returns (h : s.Holds q) (buf : Bytes) :
    Returns (s.tls_cipher_pop buf) fun r =>
      r.1.Holds (q.drop buf.length) ∧ r.2.1.take r.2.2 = q.take buf.length := by
  have hrem := h.rem
  obtain ⟨p, r, hbuf, hoff, hlen, hcap⟩ := h
  unfold CipherQueue.tls_cipher_pop
  dsimp only
  rw [hrem]
  by_cases hempty : q.length = 0
  · obtain rfl : q = [] := List.length_eq_zero_iff.mp hempty
    rw [if_pos hempty]
    refine .ret ?_
    rw [List.drop_nil, List.take_nil, List.take_zero]
    exact ⟨⟨p, r, hbuf, hoff, hlen, hcap⟩, rfl⟩
  rw [if_neg hempty]
  have hn : min q.length buf.length = (q.take buf.length).length := by
    rw [List.length_take]
    omega
  have hsplit : s.tls_cipher_in = p ++ (q.take buf.length ++ (q.drop buf.length ++ r)) := by
    rw [← List.append_assoc (q.take buf.length), List.take_append_drop]
    exact hbuf
  have hfits : (q.take buf.length).length ≤ buf.length := by
    rw [List.length_take]
    omega
  rw [hn, hoff]
  refine Returns.bind (P := fun xs => xs = q.take buf.length) ⟨_, ?_, rfl⟩ ?_
  · rw [hsplit]
    exact slice?_part p _ _
  rintro _ rfl
  rw [write?_front hfits]
  -- the queue behind the pop, with its offset moved
  have hmoved : CipherQueue.Holds { s with tls_cipher_off := p.length + (q.take buf.length).length }
      (q.drop buf.length) := by
    refine ⟨p ++ q.take buf.length, r, ?_, ?_, ?_, hcap⟩
    · rw [List.append_assoc]
      exact hsplit
    · rw [List.length_append]
    · show s.tls_cipher_len = _
      rw [hlen, List.length_append, List.length_take, List.length_drop]
      omega
  have hlast : Returns
      (if s.tls_cipher_len ≤ p.length + (q.take buf.length).length then
        some { s with tls_cipher_off := 0, tls_cipher_len := 0 }
      else if 24576 < p.length + (q.take buf.length).length then
        CipherQueue.tls_cipher_compact { s with tls_cipher_off := p.length + (q.take buf.length).length }
      else some { s with tls_cipher_off := p.length + (q.take buf.length).length })
      fun t => t.Holds (q.drop buf.length) := by
    split_ifs with hdone hfar
    · -- nothing is left
      have hnil : q.drop buf.length = [] := by
        rw [List.drop_eq_nil_iff]
        rw [List.length_take] at hdone
        omega
      rw [hnil]
      exact .ret ⟨[], s.tls_cipher_in, rfl, rfl, rfl, hcap⟩
    · exact (tls_cipher_compact_returns hmoved).mono fun _ ht => ht.1
    · exact .ret hmoved
  refine hlast.bind ?_
  intro t ht
  exact .ret ⟨ht, List.take_left⟩

end Holds

/-! ## Runs -/

/-- **The queue in the buffer is a bounded FIFO.** -/
theorem cipher_queue_implements :
    Fifo.Implements TLS_CIPHER_RX_CAP CipherQueue.step QueueCall.fifo CipherQueue.Holds := by
  intro s q c hs
  cases c with
  | append data =>
    refine (tls_cipher_append_returns hs data).bind ?_
    rintro ⟨t, ok⟩ ht
    refine .ret ?_
    unfold QueueCall.fifo fifo_step
    dsimp only at ht ⊢
    split_ifs at ht ⊢
    · exact ⟨ht.1, by rw [ht.2]⟩
    · exact ⟨ht.1, by rw [ht.2]⟩
  | pop buf =>
    refine (tls_cipher_pop_returns hs buf).bind ?_
    rintro ⟨t, out, n⟩ ⟨ht, hout⟩
    exact .ret ⟨ht, by rw [hout]; rfl⟩

/-! ## The queue as a list -/

/-- A call on the list that `Rx` and `Drive` keep. -/
def TlsSession.queue_step (s : TlsSession) : QueueCall → Option (TlsSession × FifoReply UInt8)
  | .append data => some ((s.tls_cipher_append data).1, .appended (s.tls_cipher_append data).2)
  | .pop buf => some ((s.tls_cipher_pop buf.length).1, .popped (s.tls_cipher_pop buf.length).2)

/-- What is behind the offset is queued. -/
def TlsSession.Queues (s : TlsSession) (q : Bytes) : Prop :=
  s.tls_cipher_in.drop s.tls_cipher_off = q ∧ s.tls_cipher_off ≤ s.tls_cipher_in.length

section Session

variable {s : TlsSession} {q : Bytes}

theorem TlsSession.Queues.length (h : s.Queues q) : s.tls_cipher_in.length - s.tls_cipher_off = q.length := by
  rw [← h.1, List.length_drop]

theorem TlsSession.Queues.compact (h : s.Queues q) :
    s.tls_cipher_compact.Queues q ∧ s.tls_cipher_compact.tls_cipher_off = 0 := by
  unfold TlsSession.tls_cipher_compact
  split_ifs with hzero
  · exact ⟨h, hzero⟩
  · exact ⟨⟨h.1, Nat.zero_le _⟩, rfl⟩

theorem TlsSession.Queues.append (h : s.Queues q) (data : Bytes) :
    if TLS_CIPHER_RX_CAP < q.length + data.length then
      (s.tls_cipher_append data).1.Queues q ∧ (s.tls_cipher_append data).2 = false
    else (s.tls_cipher_append data).1.Queues (q ++ data) ∧ (s.tls_cipher_append data).2 = true := by
  have htaken : ∀ {t : TlsSession}, t.Queues q →
      ({ t with tls_cipher_in := t.tls_cipher_in ++ data } : TlsSession).Queues (q ++ data) := by
    rintro t ⟨hq, hle⟩
    refine ⟨?_, ?_⟩
    · dsimp only
      rw [List.drop_append_of_le_length hle, hq]
    · dsimp only
      rw [List.length_append]
      omega
  have hlen := h.length
  have hle := h.2
  unfold TlsSession.tls_cipher_append
  dsimp only
  by_cases hfull : TLS_CIPHER_RX_CAP < s.tls_cipher_in.length + data.length
  · rw [if_pos hfull]
    obtain ⟨hc, hoff⟩ := h.compact
    have hlen' := hc.length
    rw [hoff, Nat.sub_zero] at hlen'
    rw [hlen']
    split_ifs
    · exact ⟨hc, rfl⟩
    · exact ⟨htaken hc, rfl⟩
  · rw [if_neg hfull, if_neg hfull, if_neg (by omega)]
    exact ⟨htaken h, rfl⟩

theorem TlsSession.Queues.pop (h : s.Queues q) (cap : Nat) :
    (s.tls_cipher_pop cap).1.Queues (q.drop cap) ∧ (s.tls_cipher_pop cap).2 = q.take cap := by
  have hlen := h.length
  have hle := h.2
  unfold TlsSession.tls_cipher_pop
  dsimp only
  rw [hlen]
  by_cases hempty : q.length = 0
  · obtain rfl : q = [] := List.length_eq_zero_iff.mp hempty
    rw [if_pos hempty, List.drop_nil, List.take_nil]
    exact ⟨h, rfl⟩
  rw [if_neg hempty]
  have hfront : slice s.tls_cipher_in s.tls_cipher_off (s.tls_cipher_off + min q.length cap) = q.take cap := by
    rw [slice, h.1, Nat.add_sub_cancel_left, Nat.min_comm, ← List.take_take, List.take_length]
  have hdrop : q.drop (min q.length cap) = q.drop cap := by
    by_cases hcap : cap ≤ q.length
    · rw [Nat.min_eq_right hcap]
    · rw [List.drop_eq_nil_of_le (by omega), List.drop_eq_nil_of_le (by omega)]
  have hmoved : ({ s with tls_cipher_off := s.tls_cipher_off + min q.length cap } : TlsSession).Queues
      (q.drop cap) := by
    refine ⟨?_, ?_⟩
    · dsimp only
      rw [← List.drop_drop, h.1, hdrop]
    · dsimp only
      omega
  split_ifs with hdone hfar
  · refine ⟨⟨?_, Nat.le_refl _⟩, hfront⟩
    rw [← hmoved.1]
    exact (List.drop_eq_nil_of_le hdone).symm
  · exact ⟨hmoved.compact.1, hfront⟩
  · exact ⟨hmoved, hfront⟩

/-- The list is the same queue. -/
theorem session_queue_implements :
    Fifo.Implements TLS_CIPHER_RX_CAP TlsSession.queue_step QueueCall.fifo TlsSession.Queues := by
  intro s q c hs
  cases c with
  | append data =>
    have happend := hs.append data
    refine .ret ?_
    unfold QueueCall.fifo fifo_step
    dsimp only
    split_ifs at happend ⊢
    · exact ⟨happend.1, by rw [happend.2]⟩
    · exact ⟨happend.1, by rw [happend.2]⟩
  | pop buf =>
    have hpop := hs.pop buf.length
    exact .ret ⟨hpop.1, by rw [hpop.2]; rfl⟩

/-- **The buffer and the list give the same replies** in every run. -/
theorem queue_replies_eq (hs : s.Queues q) {t : CipherQueue} (ht : t.Holds q) (calls : List QueueCall) :
    (answers TlsSession.queue_step s calls).map Prod.snd = (answers CipherQueue.step t calls).map Prod.snd := by
  obtain ⟨r, hr, -, hreplies⟩ := session_queue_implements.run hs calls
  obtain ⟨r', hr', -, hreplies'⟩ := cipher_queue_implements.run ht calls
  rw [hr, hr', Option.map_some, Option.map_some, hreplies, hreplies']

end Session

/-- **In every run** no call fails, what was popped and what is pending is what was taken, and
an append behind the run is refused if and only if it does not fit beside what is pending, which it
leaves as it is. -/
theorem tls_cipher_fifo (buf : Vector UInt8 TLS_CIPHER_RX_CAP) (calls : List QueueCall) :
    ∃ s replies, answers CipherQueue.step (.start buf) calls = some (s, replies) ∧
      fifo_given replies ++ s.pending = fifo_taken (calls.map QueueCall.fifo) replies ∧
      ∀ data, ∃ t ok, s.tls_cipher_append data = some (t, ok) ∧
        (ok = false ↔ TLS_CIPHER_RX_CAP < s.tls_cipher_len - s.tls_cipher_off + data.length) ∧
        (ok = false → t.pending = s.pending) := by
  obtain ⟨⟨s, replies⟩, hrun, hq, hreplies⟩ := cipher_queue_implements.run (holds_start buf) calls
  have hall := fifo_run_conserves TLS_CIPHER_RX_CAP [] (calls.map QueueCall.fifo)
  rw [List.nil_append] at hall
  refine ⟨s, replies, hrun, ?_, ?_⟩
  · rw [hq.pending_eq]
    dsimp only at hreplies
    rw [hreplies]
    exact hall
  · intro data
    obtain ⟨⟨t, ok⟩, happend, ht⟩ := tls_cipher_append_returns hq data
    refine ⟨t, ok, happend, ?_⟩
    rw [hq.rem, hq.pending_eq]
    dsimp only at ht
    split_ifs at ht with hfull
    · exact ⟨iff_of_true ht.2 hfull, fun _ => ht.1.pending_eq⟩
    · have htrue : ok ≠ false := by simp [ht.2]
      exact ⟨iff_of_false htrue hfull, fun hok => absurd hok htrue⟩

end EveOS.Net

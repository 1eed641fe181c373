/-
The framing of a gzip member.

`GzipFramed` says what a member is, field by field. `gzip_deflate_payload` (`Headers`) moves an
offset over the optional fields; `gzip_deflate_payload?` is the same code with its reads checked, and
returns what `gzip_deflate_payload` does, so that no read is out of range.
-/
import EveOS.Lib.Fields
import EveOS.Lib.Returns
import EveOS.Net.Headers

set_option autoImplicit false

namespace EveOS.Net

/-! ## Members -/

/-- FEXTRA: a length and as many bytes. -/
def ExtraField (xs : Bytes) : Prop :=
  ∃ lo hi data, xs = lo :: hi :: data ∧ data.length = lo.toNat + 256 * hi.toNat

/-- The optional fields that a flag byte announces, in their order. -/
def GzipFields (flg : UInt8) : Bytes → Prop :=
  Follows (Present (flg &&& 4 ≠ 0) ExtraField) <|
    Follows (Present (flg &&& 8 ≠ 0) ZeroEnded) <|
      Follows (Present (flg &&& 16 ≠ 0) ZeroEnded) (Present (flg &&& 2 ≠ 0) fun xs => xs.length = 2)

/-- `gzip` is a member around the DEFLATE stream `payload`. -/
def GzipFramed (gzip payload : Bytes) : Prop :=
  ∃ flg six fields trailer, flg &&& 0xE0 = 0 ∧ six.length = 6 ∧ GzipFields flg fields ∧
    trailer.length = 8 ∧ gzip = [0x1f, 0x8b, 8, flg] ++ six ++ fields ++ payload ++ trailer

/-! ## The offsets -/

theorem recognises_fextra (gzip : Bytes) : Recognises gzip (skip_fextra gzip) ExtraField := by
  intro i j hi
  unfold skip_fextra
  have hat : ∀ {lo hi' : UInt8} {rest : Bytes}, gzip.drop i = lo :: hi' :: rest →
      byteAt gzip i = lo ∧ byteAt gzip (i + 1) = hi' := by
    intro lo hi' rest hdrop
    have hget : ∀ k, byteAt gzip (i + k) = byteAt (gzip.drop i) k := by
      intro k
      unfold byteAt
      rw [List.getD_eq_getElem?_getD, List.getD_eq_getElem?_getD, List.getElem?_drop]
    have h0 := hget 0
    have h1 := hget 1
    rw [hdrop] at h0 h1
    exact ⟨h0, h1⟩
  constructor
  · intro h
    dsimp only at h
    split_ifs at h with hroom hend
    obtain rfl := Option.some.inj h
    obtain ⟨lo, hi', rest, hdrop⟩ : ∃ lo hi' rest, gzip.drop i = lo :: hi' :: rest :=
      ⟨gzip[i], gzip[i + 1], gzip.drop (i + 2), by
        rw [List.drop_eq_getElem_cons (by omega), List.drop_eq_getElem_cons (by omega)]⟩
    obtain ⟨h0, h1⟩ := hat hdrop
    rw [h0, h1] at hend ⊢
    have hlen := congrArg List.length hdrop
    rw [List.length_drop, List.length_cons, List.length_cons] at hlen
    have htake : (rest.take (lo.toNat + 256 * hi'.toNat)).length = lo.toNat + 256 * hi'.toNat := by
      rw [List.length_take]
      omega
    refine ⟨_, rest.drop (lo.toNat + 256 * hi'.toNat), ⟨lo, hi', _, rfl, htake⟩, ?_, ?_⟩
    · rw [hdrop, List.cons_append, List.cons_append, List.take_append_drop]
    · rw [List.length_cons, List.length_cons, htake]
      omega
  · rintro ⟨_, rest, ⟨lo, hi', data, rfl, hdata⟩, hdrop, rfl⟩
    obtain ⟨h0, h1⟩ := hat hdrop
    have hend := (end_le_of_drop hi hdrop).1
    rw [List.length_cons, List.length_cons, hdata] at hend ⊢
    rw [h0, h1]
    dsimp only
    rw [if_neg (by omega), if_neg (by omega)]
    congr 1
    omega

/-- The offset behind the optional fields. -/
def skip_fields (gzip : Bytes) (flg : UInt8) (i : Nat) : Option Nat :=
  skip_if flg 4 (skip_fextra gzip) i >>= fun i => skip_if flg 8 (skip_zstr gzip) i >>= fun i =>
    skip_if flg 16 (skip_zstr gzip) i >>= fun i => skip_if flg 2 (skip_fhcrc gzip) i

/-- **The four fields are recognised.** -/
theorem recognises_fields (gzip : Bytes) (flg : UInt8) :
    Recognises gzip (skip_fields gzip flg) (GzipFields flg) :=
  (recognises_fextra gzip).present.bind <|
    (recognises_zero_ended gzip).present.bind <|
      (recognises_zero_ended gzip).present.bind (recognises_length gzip 2).present

/-- The payload is between the fields and the last eight bytes. -/
theorem gzip_deflate_payload_eq (gzip : Bytes) :
    gzip_deflate_payload gzip =
      if gzip.length < 18 then none
      else if byteAt gzip 0 ≠ 0x1f ∨ byteAt gzip 1 ≠ 0x8b ∨ byteAt gzip 2 ≠ 8 then none
      else if byteAt gzip 3 &&& 0xE0 ≠ 0 then none
      else skip_fields gzip (byteAt gzip 3) 10 >>= fun i =>
        if gzip.length - 8 < i then none else some (slice gzip i (gzip.length - 8)) := by
  unfold gzip_deflate_payload skip_fields
  simp only [Option.bind_eq_bind, Option.bind_assoc]

/-- Ten bytes and what follows them. -/
theorem eq_header_append (gzip : Bytes) (h : 10 ≤ gzip.length) :
    gzip = [byteAt gzip 0, byteAt gzip 1, byteAt gzip 2, byteAt gzip 3] ++ slice gzip 4 10 ++ gzip.drop 10 := by
  obtain ⟨b0, b1, b2, b3, rest, rfl⟩ : ∃ b0 b1 b2 b3 rest, gzip = b0 :: b1 :: b2 :: b3 :: rest := by
    rcases gzip with _ | ⟨b0, _ | ⟨b1, _ | ⟨b2, _ | ⟨b3, rest⟩⟩⟩⟩
    all_goals first | exact ⟨_, _, _, _, _, rfl⟩ | simp at h
  change _ = b0 :: b1 :: b2 :: b3 :: (rest.take 6 ++ rest.drop 6)
  rw [List.take_append_drop]

/-- **What `gzip_deflate_payload` accepts.** -/
theorem gzip_deflate_payload_eq_some {gzip payload : Bytes} :
    gzip_deflate_payload gzip = some payload ↔ GzipFramed gzip payload := by
  rw [gzip_deflate_payload_eq]
  constructor
  · intro h
    split_ifs at h with hlen hmagic hflg
    simp only [not_or, not_not] at hmagic hflg
    obtain ⟨i, hi, hend⟩ := Option.bind_eq_some_iff.mp h
    split_ifs at hend with hbody
    obtain rfl := Option.some.inj hend
    obtain ⟨fields, rest, hfields, hdrop, rfl⟩ := (recognises_fields gzip _ 10 i (by omega)).mp hi
    obtain ⟨hle, hrest⟩ := end_le_of_drop (by omega) hdrop
    have hsix : (slice gzip 4 10).length = 6 := by
      rw [slice, List.length_take, List.length_drop]
      omega
    have htrailer : (gzip.drop (gzip.length - 8)).length = 8 := by
      rw [List.length_drop]
      omega
    have hsplit : gzip.drop (10 + fields.length) =
        slice gzip (10 + fields.length) (gzip.length - 8) ++ gzip.drop (gzip.length - 8) := by
      conv_lhs => rw [← List.take_append_drop (gzip.length - 8 - (10 + fields.length)) (gzip.drop _)]
      rw [List.drop_drop, Nat.add_sub_cancel' (by omega)]
      rfl
    refine ⟨byteAt gzip 3, slice gzip 4 10, fields, _, hflg, hsix, hfields, htrailer, ?_⟩
    conv_lhs => rw [eq_header_append gzip (by omega)]
    rw [hmagic.1, hmagic.2.1, hmagic.2.2, hdrop, ← hrest, hsplit]
    simp only [List.append_assoc]
  · rintro ⟨flg, six, fields, trailer, hflg, hsix, hfields, htrailer, rfl⟩
    have hdrop : ([0x1f, 0x8b, 8, flg] ++ six ++ fields ++ payload ++ trailer).drop 10 =
        fields ++ (payload ++ trailer) := by
      have hten : ([0x1f, 0x8b, 8, flg] ++ six).length = 10 := by rw [List.length_append, hsix]; rfl
      rw [List.append_assoc, List.append_assoc, ← hten, List.drop_left]
    have hlen : ([0x1f, 0x8b, 8, flg] ++ six ++ fields ++ payload ++ trailer).length =
        18 + fields.length + payload.length := by
      simp only [List.length_append, hsix, htrailer, List.length_cons, List.length_nil]
      omega
    have hskip := (recognises_fields ([0x1f, 0x8b, 8, flg] ++ six ++ fields ++ payload ++ trailer) flg 10 _
      (by omega)).mpr ⟨fields, payload ++ trailer, hfields, hdrop, rfl⟩
    have hrest := (end_le_of_drop (by omega) hdrop).2
    have hslice : slice ([0x1f, 0x8b, 8, flg] ++ six ++ fields ++ payload ++ trailer) (10 + fields.length)
        (18 + fields.length + payload.length - 8) = payload := by
      rw [slice, hrest, show 18 + fields.length + payload.length - 8 - (10 + fields.length) = payload.length by omega,
        List.take_left]
    change (if _ then none else if ¬(0x1f : UInt8) = 0x1f ∨ ¬(0x8b : UInt8) = 0x8b ∨ ¬(8 : UInt8) = 8 then none
      else if ¬flg &&& 0xE0 = 0 then none else skip_fields _ flg 10 >>= _) = _
    rw [if_neg (by omega), if_neg (by simp), if_neg (by simp [hflg]), hskip, hlen]
    change (if _ then none else some _) = _
    rw [if_neg (by omega), hslice]

/-! ## Checked reads

`none` is a read out of range, `some none` the `None` of the source. -/

/-- Goes on with the value of a step that has returned one. -/
def on_some? {α : Type} (x : Option (Option Nat)) (f : Nat → Option (Option α)) : Option (Option α) :=
  match x with
  | none => none
  | some none => some none
  | some (some i) => f i

/-- A round of the scan for the zero byte. -/
def zstr_round (gzip : Bytes) (i : Nat) : Option (Nat ⊕ Nat) :=
  if i < gzip.length then do
    let b ← gzip[i]?
    if b ≠ 0 then some (.inl (i + 1)) else some (.inr i)
  else some (.inr i)

def skip_zstr? (gzip : Bytes) (i : Nat) : Option (Option Nat) := do
  let i ← loop (zstr_round gzip) (gzip.length + 1) i
  if gzip.length ≤ i then some none else some (some (i + 1))

def skip_fextra? (gzip : Bytes) (i : Nat) : Option (Option Nat) :=
  if gzip.length < i + 2 then some none
  else do
    let lo ← gzip[i]?
    let hi ← gzip[i + 1]?
    let xlen := lo.toNat + 256 * hi.toNat
    let i := i + 2 + xlen
    if gzip.length < i then some none else some (some i)

def skip_fhcrc? (gzip : Bytes) (i : Nat) : Option (Option Nat) := some (skip_fhcrc gzip i)

def skip_if? (flg bit : UInt8) (skip : Nat → Option (Option Nat)) (i : Nat) : Option (Option Nat) :=
  if flg &&& bit ≠ 0 then skip i else some (some i)

/-- `gzip_deflate_payload` with its reads checked. -/
def gzip_deflate_payload? (gzip : Bytes) : Option (Option Bytes) :=
  if gzip.length < 18 then some none
  else do
    let b0 ← gzip[0]?
    let b1 ← gzip[1]?
    let b2 ← gzip[2]?
    if b0 ≠ 0x1f ∨ b1 ≠ 0x8b ∨ b2 ≠ 8 then some none
    else do
      let flg ← gzip[3]?
      if flg &&& 0xE0 ≠ 0 then some none
      else
        on_some? (skip_if? flg 4 (skip_fextra? gzip) 10) fun i =>
        on_some? (skip_if? flg 8 (skip_zstr? gzip) i) fun i =>
        on_some? (skip_if? flg 16 (skip_zstr? gzip) i) fun i =>
        on_some? (skip_if? flg 2 (skip_fhcrc? gzip) i) fun i =>
          let body_end := gzip.length - 8
          if body_end < i then some none else (slice? gzip i body_end).map some

theorem on_some?_some {α : Type} (x : Option Nat) (f : Nat → Option α) :
    on_some? (some x) (fun i => some (f i)) = some (x >>= f) := by
  cases x <;> rfl

theorem getElem?_byteAt {buf : Bytes} {i : Nat} (h : i < buf.length) : buf[i]? = some (byteAt buf i) := by
  rw [byteAt, List.getD_eq_getElem?_getD, List.getElem?_eq_getElem h, Option.getD_some]

/-- The scan stops at the first zero byte, or at the end. -/
theorem zstr_loop (gzip : Bytes) (i : Nat) :
    loop (zstr_round gzip) (gzip.length + 1) i = some (i + (gzip.drop i).findIdx (· == 0)) := by
  have hround : ∀ k, k + (gzip.drop k).findIdx (· == 0) = i + (gzip.drop i).findIdx (· == 0) →
      Returns (zstr_round gzip k)
        (RoundOk (fun k => k + (gzip.drop k).findIdx (· == 0) = i + (gzip.drop i).findIdx (· == 0))
          (fun k => gzip.length - k) (fun r => r = i + (gzip.drop i).findIdx (· == 0)) k) := by
    intro k hk
    unfold zstr_round
    by_cases hlt : k < gzip.length
    · have hdrop : gzip.drop k = byteAt gzip k :: gzip.drop (k + 1) := by
        rw [List.drop_eq_getElem_cons hlt]
        congr 1
        have hget := getElem?_byteAt hlt
        rw [List.getElem?_eq_getElem hlt] at hget
        exact Option.some.inj hget
      rw [hdrop, List.findIdx_cons] at hk
      rw [if_pos hlt, getElem?_byteAt hlt]
      by_cases hb : byteAt gzip k = 0
      · rw [hb] at hk
        change Returns (if byteAt gzip k ≠ 0 then _ else _) _
        rw [if_neg (not_not.mpr hb)]
        exact .done hk
      · rw [beq_false_of_ne hb] at hk
        change Returns (if byteAt gzip k ≠ 0 then _ else _) _
        rw [if_pos hb]
        exact .goOn (by rw [← hk]; simp only [cond_false]; omega) (by omega)
    · rw [List.drop_eq_nil_of_le (Nat.le_of_not_lt hlt)] at hk
      rw [if_neg hlt]
      exact .done hk
  obtain ⟨r, hr, rfl⟩ : Returns (loop (zstr_round gzip) (gzip.length + 1) i)
      (fun r => r = i + (gzip.drop i).findIdx (· == 0)) := loop_returns hround rfl (by omega)
  exact hr

theorem skip_zstr?_eq (gzip : Bytes) (i : Nat) : skip_zstr? gzip i = some (skip_zstr gzip i) := by
  unfold skip_zstr? skip_zstr
  rw [zstr_loop]
  dsimp only [Option.bind_eq_bind, Option.bind_some]
  split_ifs <;> rfl

theorem skip_fextra?_eq (gzip : Bytes) (i : Nat) : skip_fextra? gzip i = some (skip_fextra gzip i) := by
  unfold skip_fextra? skip_fextra
  by_cases hroom : gzip.length < i + 2
  · rw [if_pos hroom, if_pos hroom]
  · rw [if_neg hroom, if_neg hroom, getElem?_byteAt (by omega), getElem?_byteAt (by omega)]
    dsimp only [Option.bind_eq_bind, Option.bind_some]
    split_ifs <;> rfl

theorem skip_if?_eq {skip : Nat → Option Nat} {skip' : Nat → Option (Option Nat)}
    (h : ∀ i, skip' i = some (skip i)) (flg bit : UInt8) (i : Nat) :
    skip_if? flg bit skip' i = some (skip_if flg bit skip i) := by
  unfold skip_if? skip_if
  split_ifs
  · exact h i
  · rfl

/-- **No read is out of range**, and the checked code returns what the code returns. -/
theorem gzip_deflate_payload?_eq (gzip : Bytes) :
    gzip_deflate_payload? gzip = some (gzip_deflate_payload gzip) := by
  rw [gzip_deflate_payload_eq]
  unfold gzip_deflate_payload?
  by_cases hlen : gzip.length < 18
  · rw [if_pos hlen, if_pos hlen]
  · rw [if_neg hlen, if_neg hlen, getElem?_byteAt (by omega), getElem?_byteAt (by omega),
      getElem?_byteAt (by omega), getElem?_byteAt (by omega)]
    dsimp only [Option.bind_eq_bind, Option.bind_some]
    by_cases hmagic : byteAt gzip 0 ≠ 0x1f ∨ byteAt gzip 1 ≠ 0x8b ∨ byteAt gzip 2 ≠ 8
    · rw [if_pos hmagic, if_pos hmagic]
    · rw [if_neg hmagic, if_neg hmagic]
      by_cases hflg : byteAt gzip 3 &&& 0xE0 ≠ 0
      · rw [if_pos hflg, if_pos hflg]
      · have hslice : ∀ i, (if gzip.length - 8 < i then some none else (slice? gzip i (gzip.length - 8)).map some) =
            some (if gzip.length - 8 < i then none else some (slice gzip i (gzip.length - 8))) := by
          intro i
          split_ifs with hend
          · rfl
          · rw [slice?_eq (Nat.le_of_not_lt hend) (Nat.sub_le _ _)]
            rfl
        have hcrc : ∀ i, skip_fhcrc? gzip i = some (skip_fhcrc gzip i) := fun _ => rfl
        rw [if_neg hflg, if_neg hflg]
        simp only [hslice, skip_if?_eq (skip_fextra?_eq gzip), skip_if?_eq (skip_zstr?_eq gzip),
          skip_if?_eq hcrc, on_some?_some]
        unfold skip_fields
        simp only [Option.bind_eq_bind, Option.bind_assoc]

/-- **gzip framing.** The code returns a payload exactly for the members around it, and `None` for
every other string. -/
theorem gzip_deflate_payload_iff (gzip : Bytes) :
    (∀ payload, gzip_deflate_payload? gzip = some (some payload) ↔ GzipFramed gzip payload) ∧
      (gzip_deflate_payload? gzip = some none ↔ ∀ payload, ¬GzipFramed gzip payload) := by
  rw [gzip_deflate_payload?_eq]
  constructor
  · intro payload
    rw [Option.some.injEq]
    exact gzip_deflate_payload_eq_some
  · rw [Option.some.injEq, Option.eq_none_iff_forall_ne_some]
    simp only [ne_eq, gzip_deflate_payload_eq_some]

end EveOS.Net

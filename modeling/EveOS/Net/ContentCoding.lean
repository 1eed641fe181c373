/-
`Content-Encoding` lines as a server writes them, and what the parser finds in them.

A header block is given by its lines, and a `Content-Encoding` line by the items of its list, with
any blanks around an item's name and any parameters behind it. `parse_layers_wire` says what
`parse_content_encoding_layers` makes of a block: the layers of its codings in header order, or an
error if there is a coding it does not know or a fifth one.
-/
import EveOS.Net.ChunkEncode
import EveOS.Net.Identity

set_option autoImplicit false

namespace EveOS.Net

/-! ## Trimming -/

section Trim

variable {x a b : Bytes}

theorem dropWhile_blanks (h : ∀ c ∈ a, isBlank c = true) : a.dropWhile isBlank = [] :=
  List.dropWhile_eq_nil_iff.mpr h

/-- Blanks around a string are trimmed with it. -/
theorem trimBlanks_append (ha : ∀ c ∈ a, isBlank c = true) (hb : ∀ c ∈ b, isBlank c = true) :
    trimBlanks (a ++ (x ++ b)) = trimBlanks x := by
  have hright : ∀ y : Bytes, (y ++ b).rdropWhile isBlank = y.rdropWhile isBlank := by
    intro y
    have hrev : ∀ c ∈ b.reverse, isBlank c = true := fun c hc => hb c (List.mem_reverse.mp hc)
    rw [List.rdropWhile, List.rdropWhile, List.reverse_append, List.dropWhile_append_of_pos hrev]
  rw [trimBlanks, trimBlanks, List.dropWhile_append_of_pos ha, List.dropWhile_append]
  split_ifs with hx
  · rw [List.isEmpty_iff] at hx
    rw [hx, dropWhile_blanks hb]
  · exact hright _

/-- A string is what trimming leaves, with blanks around it. -/
theorem trimBlanks_split (x : Bytes) :
    ∃ a b, x = a ++ (trimBlanks x ++ b) ∧ (∀ c ∈ a, isBlank c = true) ∧ ∀ c ∈ b, isBlank c = true := by
  refine ⟨x.takeWhile isBlank, (x.dropWhile isBlank).rtakeWhile isBlank, ?_, ?_, ?_⟩
  · have hright : (x.dropWhile isBlank).rdropWhile isBlank ++ (x.dropWhile isBlank).rtakeWhile isBlank =
        x.dropWhile isBlank := by
      rw [List.rdropWhile, List.rtakeWhile, ← List.reverse_append, List.takeWhile_append_dropWhile,
        List.reverse_reverse]
    rw [trimBlanks, hright, List.takeWhile_append_dropWhile]
  · exact fun c hc => List.mem_takeWhile_imp hc
  · intro c hc
    rw [List.rtakeWhile, List.mem_reverse] at hc
    exact List.mem_takeWhile_imp hc

end Trim

/-! ## List items -/

/-- An item of a list: a name, which may be empty, between blanks, and parameters. -/
structure ListItem where
  lead : Bytes
  name : Bytes
  trail : Bytes
  params : Bytes
  lead_blank : ∀ b ∈ lead, isBlank b = true
  name_clean : 44 ∉ name ∧ 59 ∉ name ∧ 10 ∉ name ∧ 13 ∉ name
  name_trimmed : trimBlanks name = name
  trail_blank : ∀ b ∈ trail, isBlank b = true
  params_start : params = [] ∨ params.head? = some 59
  params_clean : 44 ∉ params ∧ 10 ∉ params ∧ 13 ∉ params

/-- The codings a response may name. -/
inductive Coding
  | gzip
  | x_gzip
  | deflate
  | br
  deriving DecidableEq, Repr

def Coding.token : Coding → Bytes
  | .gzip => ascii "gzip"
  | .x_gzip => ascii "x-gzip"
  | .deflate => ascii "deflate"
  | .br => ascii "br"

def Coding.layer : Coding → BodyLayer
  | .gzip | .x_gzip => .Gzip
  | .deflate => .DeflateZlib
  | .br => .Brotli

/-- What an item names. An item without a name counts like `identity`. -/
inductive ItemKind
  | coding (c : Coding)
  | identity
  | compress
  | unknown
  deriving DecidableEq, Repr

namespace ListItem

variable (i : ListItem)

def wire : Bytes := i.lead ++ (i.name ++ (i.trail ++ i.params))

/-- The name in lower case. -/
def token : Bytes := i.name.map lowerAscii

def kind : ItemKind :=
  if i.token = Coding.token .gzip then .coding .gzip
  else if i.token = Coding.token .x_gzip then .coding .x_gzip
  else if i.token = Coding.token .deflate then .coding .deflate
  else if i.token = Coding.token .br then .coding .br
  else if i.token = [] ∨ i.token = ascii "identity" then .identity
  else if i.token = ascii "compress" then .compress
  else .unknown

def coding : Option Coding :=
  match i.kind with
  | .coding c => some c
  | _ => none

/-- No byte that separates items or ends a line. -/
theorem not_mem_wire {b : UInt8} (hb : b = 44 ∨ b = 10 ∨ b = 13) : b ∉ i.wire := by
  have hblank : ∀ {y : Bytes}, (∀ c ∈ y, isBlank c = true) → b ∉ y := by
    intro y hy hmem
    have hisb := hy b hmem
    rcases hb with rfl | rfl | rfl <;> cases hisb
  have hname : b ∉ i.name := by
    obtain ⟨h44, -, h10, h13⟩ := i.name_clean
    rcases hb with rfl | rfl | rfl
    · exact h44
    · exact h10
    · exact h13
  have hparams : b ∉ i.params := by
    obtain ⟨h44, h10, h13⟩ := i.params_clean
    rcases hb with rfl | rfl | rfl
    · exact h44
    · exact h10
    · exact h13
  simp only [wire, List.mem_append, not_or]
  exact ⟨hblank i.lead_blank, hname, hblank i.trail_blank, hparams⟩

theorem params_takeWhile : i.params.takeWhile (· != 59) = [] := by
  rcases i.params_start with h | h
  · rw [h]
    rfl
  · obtain ⟨rest, hrest⟩ := List.head?_eq_some_iff.mp h
    rw [hrest]
    rfl

/-- The name is what the parser's trimming and cutting leaves. -/
theorem trimmed : trimBlanks ((trimBlanks i.wire).takeWhile (· != 59)) = i.name := by
  have hblank : ∀ {y : Bytes}, (∀ c ∈ y, isBlank c = true) → ∀ c ∈ y, (c != 59) = true := by
    intro y hy c hc
    rw [bne_iff_ne]
    rintro rfl
    exact absurd (hy 59 hc) (by decide)
  have hname : ∀ c ∈ i.name, (c != 59) = true := by
    intro c hc
    rw [bne_iff_ne]
    rintro rfl
    exact i.name_clean.2.1 hc
  -- cutting before trimming leaves the name between its blanks
  have hcut : i.wire.takeWhile (· != 59) = i.lead ++ (i.name ++ i.trail) := by
    rw [wire, List.takeWhile_append_of_pos (hblank i.lead_blank), List.takeWhile_append_of_pos hname,
      List.takeWhile_append_of_pos (hblank i.trail_blank), i.params_takeWhile, List.append_nil]
  obtain ⟨a, b, hsplit, ha, hb⟩ := trimBlanks_split i.wire
  obtain ⟨b', hb', hrest⟩ : ∃ b', (∀ c ∈ b', isBlank c = true) ∧
      (trimBlanks i.wire ++ b).takeWhile (· != 59) = (trimBlanks i.wire).takeWhile (· != 59) ++ b' := by
    rw [List.takeWhile_append]
    split_ifs with hall
    · refine ⟨b, hb, ?_⟩
      rw [List.takeWhile_eq_self_iff.mpr (hblank hb), (List.takeWhile_prefix _).eq_of_length hall]
    · exact ⟨[], by simp, (List.append_nil _).symm⟩
  have hboth : a ++ ((trimBlanks i.wire).takeWhile (· != 59) ++ b') = i.lead ++ (i.name ++ i.trail) := by
    rw [← hcut, ← hrest]
    conv_rhs => rw [hsplit, List.takeWhile_append_of_pos (hblank ha)]
  rw [← trimBlanks_append ha hb', hboth, trimBlanks_append i.lead_blank i.trail_blank,
    i.name_trimmed]

end ListItem

/-- A name is compared in lower case. -/
theorem token_bytes_ci_eq_iff (token expect : Bytes) :
    token_bytes_ci_eq token expect = true ↔ token.map lowerAscii = expect := by
  unfold token_bytes_ci_eq
  induction token generalizing expect with
  | nil => cases expect <;> simp
  | cons b token ih =>
    cases expect with
    | nil => simp
    | cons e expect =>
      have hrest := ih expect
      simp only [Bool.and_eq_true, beq_iff_eq] at hrest
      simp only [Bool.and_eq_true, beq_iff_eq, List.length_cons, List.zip_cons_cons, List.all_cons,
        List.map_cons, List.cons.injEq, Nat.add_right_cancel_iff]
      rw [← hrest]
      exact and_left_comm

/-- What an item adds to the layers: `none` is an error. -/
def ItemKind.layer : ItemKind → Option (Option BodyLayer)
  | .coding c => some (some c.layer)
  | .identity => some none
  | .compress => some none
  | .unknown => none

/-- **What the parser makes of an item.** -/
theorem content_coding_item (i : ListItem) : content_coding i.wire = i.kind.layer := by
  have heq : ∀ e, token_bytes_ci_eq i.name e = decide (i.token = e) := by
    intro e
    rw [← Bool.coe_iff_coe, token_bytes_ci_eq_iff, decide_eq_true_eq]
    rfl
  have hnil : i.name = [] ↔ i.token = [] := by rw [ListItem.token, List.map_eq_nil_iff]
  unfold content_coding ListItem.kind
  dsimp only
  rw [i.trimmed, heq, heq, heq, heq, heq, heq]
  simp only [hnil, Bool.or_eq_true, decide_eq_true_eq]
  -- only the name in lower case matters
  generalize i.token = t
  by_cases hgzip : t = Coding.token .gzip
  · subst hgzip
    rfl
  by_cases hxgzip : t = Coding.token .x_gzip
  · subst hxgzip
    rfl
  by_cases hdeflate : t = Coding.token .deflate
  · subst hdeflate
    rfl
  by_cases hbr : t = Coding.token .br
  · subst hbr
    rfl
  have hknown : ¬(t = ascii "gzip" ∨ t = ascii "x-gzip") := not_or.mpr ⟨hgzip, hxgzip⟩
  have hdeflate' : ¬t = ascii "deflate" := hdeflate
  have hbr' : ¬t = ascii "br" := hbr
  rw [if_neg hgzip, if_neg hxgzip, if_neg hdeflate, if_neg hbr, if_neg hknown, if_neg hdeflate', if_neg hbr']
  by_cases hnone : t = []
  · rw [if_pos hnone, if_pos (.inl hnone)]
    rfl
  · by_cases hid : t = ascii "identity"
    · rw [if_neg hnone, if_pos (.inl hid), if_pos (.inr hid)]
      rfl
    · rw [if_neg hnone, if_neg (not_or.mpr ⟨hnone, hid⟩)]
      by_cases hcompress : t = ascii "compress"
      · rw [if_pos (.inr hcompress), if_pos hcompress]
        rfl
      · rw [if_neg (not_or.mpr ⟨hid, hcompress⟩), if_neg hcompress]
        rfl

/-- Blanks in front of an item do not matter. -/
theorem content_coding_dropWhile (raw : Bytes) : content_coding (raw.dropWhile isBlank) = content_coding raw := by
  have htrim : trimBlanks (raw.dropWhile isBlank) = trimBlanks raw := by
    have hsplit := trimBlanks_append (x := raw.dropWhile isBlank) (a := raw.takeWhile isBlank) (b := [])
      (fun c hc => List.mem_takeWhile_imp hc) (by simp)
    rw [List.append_nil, List.takeWhile_append_dropWhile] at hsplit
    exact hsplit.symm
  unfold content_coding
  rw [htrim]

/-! ## Header blocks -/

/-- The end of a line. -/
inductive LineEnd
  | lf
  | crlf
  deriving DecidableEq, Repr

def LineEnd.wire : LineEnd → Bytes
  | .lf => [10]
  | .crlf => [13, 10]

def CONTENT_ENCODING : Bytes := ascii "content-encoding:"

/-- A line of a header block: a `Content-Encoding` line with its list, or another line. -/
inductive HeaderLine
  | other (text : Bytes) (clean : 10 ∉ text ∧ text.getLast? ≠ some 13)
      (hno : (text.take CONTENT_ENCODING.length).map lowerAscii ≠ CONTENT_ENCODING)
  | encoding (field : Bytes) (hf : field.map lowerAscii = CONTENT_ENCODING) (items : List ListItem)
      (nonempty : items ≠ [])

def HeaderLine.text : HeaderLine → Bytes
  | .other text _ _ => text
  | .encoding field _ items _ => field ++ [44].intercalate (items.map ListItem.wire)

def HeaderLine.items : HeaderLine → List ListItem
  | .other _ _ _ => []
  | .encoding _ _ items _ => items

/-- A header block: lines and an empty one. -/
structure ResponseHead where
  lines : List (HeaderLine × LineEnd)
  last : LineEnd

namespace ResponseHead

variable (h : ResponseHead)

def wire : Bytes := (h.lines.map fun l => l.1.text ++ l.2.wire).flatten ++ h.last.wire

/-- The items of all `Content-Encoding` lines, in order. -/
def items : List ListItem := h.lines.flatMap fun l => l.1.items

/-- The codings of the block in header order. -/
def codings : List Coding := h.items.filterMap ListItem.coding

end ResponseHead

theorem mem_intercalate {sep b : UInt8} {parts : List Bytes} (h : b ∈ [sep].intercalate parts) :
    b = sep ∨ ∃ part ∈ parts, b ∈ part := by
  induction parts with
  | nil => cases h
  | cons part parts ih =>
    cases parts with
    | nil =>
      rw [List.intercalate_singleton] at h
      exact .inr ⟨part, List.mem_cons_self, h⟩
    | cons part' parts =>
      rw [List.intercalate_cons_cons, List.mem_append, List.mem_append, List.mem_singleton] at h
      rcases h with (hpart | hsep) | hrest
      · exact .inr ⟨part, List.mem_cons_self, hpart⟩
      · exact .inl hsep
      · rcases ih hrest with hsep | ⟨p, hp, hbp⟩
        · exact .inl hsep
        · exact .inr ⟨p, List.mem_cons_of_mem _ hp, hbp⟩

/-- A line has no line end in it. -/
theorem HeaderLine.clean (l : HeaderLine) : 10 ∉ l.text ∧ l.text.getLast? ≠ some 13 := by
  cases l with
  | other text clean hno => exact clean
  | encoding field hf items nonempty =>
    have hlist : ∀ b, b = 10 ∨ b = 13 → b ∉ field ++ [44].intercalate (items.map ListItem.wire) := by
      intro b hb hmem
      rcases List.mem_append.mp hmem with hfield | hlist
      · have hlow : lowerAscii b ∈ CONTENT_ENCODING := by
          rw [← hf]
          exact List.mem_map_of_mem hfield
        rcases hb with rfl | rfl
        · exact absurd hlow (by decide)
        · exact absurd hlow (by decide)
      · rcases mem_intercalate hlist with hsep | ⟨part, hpart, hbp⟩
        · rcases hb with rfl | rfl <;> cases hsep
        · obtain ⟨i, -, rfl⟩ := List.mem_map.mp hpart
          exact i.not_mem_wire (.inr hb) hbp
    exact ⟨hlist 10 (.inl rfl), fun hlast => hlist 13 (.inr rfl) (List.mem_of_getLast? hlast)⟩

/-! ## The line scan -/

theorem header_lines_from_line {text : Bytes} (h : 10 ∉ text) (line rest : Bytes) :
    header_lines_from line (text ++ 10 :: rest) = strip_cr (line ++ text) :: header_lines_from [] rest := by
  induction text generalizing line with
  | nil => rw [List.nil_append, header_lines_from, if_pos rfl, List.append_nil]
  | cons b text ih =>
    have hb : b ≠ 10 := fun hb => h (by simp [hb])
    rw [List.cons_append, header_lines_from, if_neg hb, ih fun hm => h (List.mem_cons_of_mem _ hm),
      List.append_assoc]
    rfl

/-- A line and its end. -/
theorem header_lines_wire {text : Bytes} (h : 10 ∉ text ∧ text.getLast? ≠ some 13) (e : LineEnd) (rest : Bytes) :
    header_lines (text ++ e.wire ++ rest) = text :: header_lines rest := by
  unfold header_lines
  cases e with
  | lf =>
    have hsplit : text ++ LineEnd.lf.wire ++ rest = text ++ 10 :: rest := by simp [LineEnd.wire]
    rw [hsplit, header_lines_from_line h.1, List.nil_append, strip_cr, if_neg h.2]
  | crlf =>
    have hsplit : text ++ LineEnd.crlf.wire ++ rest = (text ++ [13]) ++ 10 :: rest := by simp [LineEnd.wire]
    have hno : 10 ∉ text ++ [13] := by simp [h.1]
    have hstrip : strip_cr (text ++ [13]) = text := by
      unfold strip_cr
      rw [if_pos List.getLast?_concat, List.dropLast_concat]
    rw [hsplit, header_lines_from_line hno, List.nil_append, hstrip]

theorem header_lines_head (h : ResponseHead) :
    header_lines h.wire = h.lines.map (fun l => l.1.text) ++ [[]] := by
  obtain ⟨lines, last⟩ := h
  induction lines with
  | nil =>
    have hempty : (10 : UInt8) ∉ ([] : Bytes) ∧ ([] : Bytes).getLast? ≠ some 13 := by simp
    have hblank := header_lines_wire hempty last []
    rw [List.nil_append, List.append_nil] at hblank
    exact hblank
  | cons l lines ih =>
    have hline := header_lines_wire l.1.clean l.2 (ResponseHead.wire ⟨lines, last⟩)
    rw [ih] at hline
    rw [List.map_cons, List.cons_append, ← hline]
    unfold ResponseHead.wire
    simp only [List.map_cons, List.flatten_cons, List.append_assoc]

/-! ## The list of a line -/

theorem line_starts_with_ci_iff (line pfx : Bytes) :
    line_starts_with_ci line pfx = true ↔ (line.take pfx.length).map lowerAscii = pfx := by
  have hci := token_bytes_ci_eq_iff (line.take pfx.length) pfx
  unfold token_bytes_ci_eq at hci
  unfold line_starts_with_ci
  rw [← hci]
  simp only [Bool.and_eq_true, decide_eq_true_eq, beq_iff_eq, List.length_take]
  constructor
  · rintro ⟨hle, hall⟩
    exact ⟨by omega, hall⟩
  · rintro ⟨hlen, hall⟩
    exact ⟨by omega, hall⟩

/-- Blanks in front of a list are blanks in front of its first item. -/
theorem splitOn_list (i : ListItem) (items : List ListItem) :
    (([44].intercalate ((i :: items).map ListItem.wire)).dropWhile isBlank).splitOn 44 =
      i.wire.dropWhile isBlank :: items.map ListItem.wire := by
  have hfirst : 44 ∉ i.wire.dropWhile isBlank :=
    fun h => i.not_mem_wire (.inl rfl) ((List.dropWhile_sublist _).mem h)
  cases items with
  | nil =>
    rw [List.map_cons, List.map_nil, List.intercalate_singleton]
    exact List.splitOn_eq_singleton hfirst
  | cons i' items =>
    have hrest : ∀ part ∈ (i' :: items).map ListItem.wire, 44 ∉ part := by
      intro part hpart
      obtain ⟨j, -, rfl⟩ := List.mem_map.mp hpart
      exact j.not_mem_wire (.inl rfl)
    have hdrop : (i.wire ++ 44 :: [44].intercalate ((i' :: items).map ListItem.wire)).dropWhile isBlank =
        i.wire.dropWhile isBlank ++ 44 :: [44].intercalate ((i' :: items).map ListItem.wire) := by
      rw [List.dropWhile_append]
      split_ifs with hnil
      · rw [List.isEmpty_iff] at hnil
        rw [hnil]
        rfl
      · rfl
    have hlist : [44].intercalate ((i :: i' :: items).map ListItem.wire) =
        i.wire ++ 44 :: [44].intercalate ((i' :: items).map ListItem.wire) := by
      rw [List.map_cons, List.map_cons, List.intercalate_cons_cons, List.append_assoc]
      rfl
    rw [hlist, hdrop, List.splitOn_append_cons_self_of_not_mem hfirst,
      List.splitOn_intercalate 44 hrest (by simp)]

/-- The items of a line as the parser splits them. -/
theorem content_encoding_parts_line (l : HeaderLine) :
    (content_encoding_parts l.text).map content_coding = l.items.map fun i => i.kind.layer := by
  cases l with
  | other text clean hno =>
    have hci : ¬line_starts_with_ci text (ascii "content-encoding:") = true := by
      rw [line_starts_with_ci_iff]
      exact hno
    have htrim : trim_http_line_prefix text (ascii "content-encoding:") = none := by
      rw [ trim_http_line_prefix, if_neg hci]
    rw [HeaderLine.text, content_encoding_parts, htrim]
    rfl
  | encoding field hf items nonempty =>
    have hlen : field.length = (ascii "content-encoding:").length := by
      rw [← List.length_map lowerAscii, hf]
      rfl
    have hci : line_starts_with_ci (field ++ [44].intercalate (items.map ListItem.wire))
        (ascii "content-encoding:") = true := by
      rw [line_starts_with_ci_iff, ← hlen, List.take_left]
      exact hf
    have htrim : trim_http_line_prefix (field ++ [44].intercalate (items.map ListItem.wire))
        (ascii "content-encoding:") = some (([44].intercalate (items.map ListItem.wire)).dropWhile isBlank) := by
      rw [ trim_http_line_prefix, if_pos hci, ← hlen, List.drop_left]
    obtain ⟨i, items, rfl⟩ := List.exists_cons_of_ne_nil nonempty
    rw [HeaderLine.text, content_encoding_parts, htrim]
    dsimp only
    rw [splitOn_list, List.map_cons, content_coding_dropWhile, content_coding_item, List.map_map]
    simp only [HeaderLine.items, List.map_cons, Function.comp_def, content_coding_item]

/-! ## The layers of a block -/

/-- The items of a block as the parser splits them. -/
theorem content_encoding_parts_head (h : ResponseHead) :
    ((header_lines h.wire).flatMap content_encoding_parts).map content_coding =
      h.items.map fun i => i.kind.layer := by
  have hblank : content_encoding_parts [] = [] := rfl
  rw [header_lines_head, List.flatMap_append, List.flatMap_singleton, hblank, List.append_nil,
    ResponseHead.items]
  induction h.lines with
  | nil => rfl
  | cons l lines ih =>
    simp only [List.map_cons, List.flatMap_cons, List.map_append, content_encoding_parts_line]
    rw [ih]

/-- Taking items into the layers: an unknown one or a fifth layer is an error. -/
theorem foldlM_push_layer (parts : List Bytes) (layers : List BodyLayer) (hroom : layers.length ≤ 4) :
    parts.foldlM push_layer layers =
      if none ∉ parts.map content_coding ∧
          (layers ++ (parts.map content_coding).filterMap Option.join).length ≤ 4 then
        some (layers ++ (parts.map content_coding).filterMap Option.join)
      else none := by
  induction parts generalizing layers with
  | nil => simp [hroom]
  | cons part parts ih =>
    rw [List.foldlM_cons]
    rcases hc : content_coding part with _ | _ | layer
    · have hstep : push_layer layers part = none := by rw [push_layer, hc]
      rw [hstep, List.map_cons, hc, if_neg (fun h => h.1 List.mem_cons_self)]
      rfl
    · have hstep : push_layer layers part = some layers := by rw [push_layer, hc]
      rw [hstep, Option.bind_eq_bind, Option.bind_some, ih layers hroom]
      simp [hc]
    · have hstep : push_layer layers part = if 4 ≤ layers.length then none else some (layers ++ [layer]) := by
        rw [push_layer, hc]
      rw [hstep]
      by_cases hfull : 4 ≤ layers.length
      · -- the fifth layer
        have hmany : ¬(layers ++ ((part :: parts).map content_coding).filterMap Option.join).length ≤ 4 := by
          rw [List.map_cons, hc, List.filterMap_cons_some (f := Option.join) rfl, List.length_append,
            List.length_cons]
          omega
        rw [if_pos hfull, if_neg (fun h => hmany h.2)]
        rfl
      · rw [if_neg hfull, Option.bind_eq_bind, Option.bind_some,
          ih (layers ++ [layer]) (by rw [List.length_append, List.length_singleton]; omega)]
        simp [hc]

/-- **What the parser finds in a block.** -/
theorem parse_layers_wire (h : ResponseHead) :
    parse_content_encoding_layers h.wire =
      if (∀ i ∈ h.items, i.kind ≠ .unknown) ∧ h.codings.length ≤ 4 then some (h.codings.map Coding.layer)
      else none := by
  have hunknown : ∀ k : ItemKind, k.layer = none ↔ k = .unknown := by
    intro k
    cases k <;> simp [ItemKind.layer]
  have hknown : none ∉ h.items.map (fun i => i.kind.layer) ↔ ∀ i ∈ h.items, i.kind ≠ .unknown := by
    simp only [List.mem_map, hunknown, not_exists, not_and, ne_eq]
  have hcodings : (h.items.map fun i => i.kind.layer).filterMap Option.join = h.codings.map Coding.layer := by
    rw [ResponseHead.codings, List.filterMap_map, List.map_filterMap]
    congr 1
    funext i
    unfold ListItem.coding
    rw [Function.comp_apply]
    cases i.kind <;> rfl
  rw [parse_content_encoding_layers, foldlM_push_layer _ [] (by simp), content_encoding_parts_head,
    List.nil_append, hcodings, List.length_map]
  simp only [hknown]

end EveOS.Net

/-
The frames that the browser runtime reads from its tool server: a JSON text on a line
of its own, or a body behind a Content-Length header.
-/
import HermesPipeline.Lib.AsciiText
import HermesPipeline.Lib.Lines
import HermesPipeline.Lib.PyInt
import HermesPipeline.LoopbackProtocol
import Mathlib.Data.List.DropRight

namespace HermesPipeline

namespace McpFraming

open Lib Lib.Lines

abbrev Bytes := List UInt8

abbrev Members := List (String × Json)

def ascii (letters : List Char) : Bytes := letters.map fun c => UInt8.ofNat c.toNat

def lf : UInt8 := 10

def cr : UInt8 := 13

def colon : UInt8 := 58

/-- The white space of `bytes.strip`. -/
def isSpace (b : UInt8) : Bool := b ∈ ([32, 9, 10, 11, 12, 13] : Bytes)

/-- `bytes.strip()`. -/
def strip (bytes : Bytes) : Bytes := (bytes.dropWhile isSpace).rdropWhile isSpace

def lowerByte (b : UInt8) : UInt8 := if 65 ≤ b.toNat ∧ b.toNat ≤ 90 then b + 32 else b

/-- `bytes.lower()`. -/
def lower (bytes : Bytes) : Bytes := bytes.map lowerByte

def headerName : Bytes := ascii
  ['c', 'o', 'n', 't', 'e', 'n', 't', '-', 'l', 'e', 'n', 'g', 't', 'h']

/-- `bytes.split(b":", 1)[1]`. -/
def behindColon (bytes : Bytes) : Bytes := (bytes.dropWhile (· ≠ colon)).drop 1

/-- How a read ends without a frame. -/
inductive ReadFailure
  /-- `RuntimeError("eof")`. -/
  | eof
  /-- `RuntimeError("bad frame")`. -/
  | badFrame
  /-- A `ValueError`: of a text's encoding, a number or a JSON text. -/
  | value
  /-- An `OverflowError`: of a size that is no index. -/
  | overflow
  /-- What else `json.loads` raises. -/
  | other
deriving Repr, DecidableEq

/-- `json.loads(bytes.decode("utf-8"))`. -/
abbrev Loads := Bytes → Except LoadFailure Json

/-- `json.loads` of a frame, and the test that it is an object. -/
def loadFrame (loads : Loads) (bytes : Bytes) : Except ReadFailure Members :=
  match loads bytes with
  | .ok (.obj members) => .ok members
  | .ok _ => .error .badFrame
  | .error .value => .error .value
  | .error .other => .error .other

/-- `sys.maxsize`. -/
def maxSize : Nat := 2 ^ 63 - 1

/-- `stream.read(size)`: all that is left for -1, a `ValueError` below it. -/
def readSize (size : Int) (stream : Bytes) : Except ReadFailure Bytes × Bytes :=
  if size < -(maxSize : Int) - 1 ∨ (maxSize : Int) < size then (.error .overflow, stream)
  else if size = -1 then (.ok stream, [])
  else if size < 0 then (.error .value, stream)
  else (.ok (stream.take size.toNat), stream.drop size.toNat)

/-- The loop over the further header lines, up to an empty one or the end. -/
def skipHeaders (stream : Bytes) : Bytes :=
  let line := readLine lf stream
  if _hend : line.1 = [] then line.2
  else if line.1 = [cr, lf] ∨ line.1 = [lf] then line.2
  else skipHeaders line.2
termination_by stream.length
decreasing_by exact length_readLine_lt _hend

/-- The body behind a Content-Length header. -/
def readBody (loads : Loads) (header stream : Bytes) : Except ReadFailure Members × Bytes :=
  match AsciiText.decode (strip (behindColon header)) with
  | none => (.error .value, stream)
  | some letters =>
      match pyInt (String.ofList letters) with
      | none => (.error .value, skipHeaders stream)
      | some size =>
          match readSize size (skipHeaders stream) with
          | (.ok body, rest) => (loadFrame loads body, rest)
          | (.error e, rest) => (.error e, rest)

/-- `_read_frame`: what it returns or raises, and what is left of the stream. -/
def readFrame (loads : Loads) (stream : Bytes) : Except ReadFailure Members × Bytes :=
  let line := readLine lf stream
  if _hend : line.1 = [] then (.error .eof, line.2)
  else
    let stripped := strip line.1
    if stripped = [] then readFrame loads line.2
    else if headerName ++ [colon] <+: lower stripped then readBody loads stripped line.2
    else (loadFrame loads stripped, line.2)
termination_by stream.length
decreasing_by exact length_readLine_lt _hend

/-- White space within a line. -/
def Blank (bytes : Bytes) : Prop := ∀ b ∈ bytes, isSpace b = true ∧ b ≠ lf

/-- Lines of white space. -/
inductive BlankLines : Bytes → Prop
  | nil : BlankLines []
  | line {blank rest : Bytes} (hblank : Blank blank) (hrest : BlankLines rest) :
      BlankLines (blank ++ lf :: rest)

/-- Header lines, each with something on it, and the empty line behind them. -/
inductive Headers : Bytes → Prop
  | last : Headers [lf]
  | lastCr : Headers [cr, lf]
  | header {line rest : Bytes} (hline : lf ∉ line) (hnonempty : line ≠ []) (hsome : line ≠ [cr])
      (hrest : Headers rest) : Headers (line ++ lf :: rest)

/-- The two ways to write an object. -/
inductive Encodes (loads : Loads) (members : Members) : Bytes → Prop
  | line {before text after : Bytes} (hbefore : Blank before) (hafter : Blank after)
      (hloads : loads text = .ok (.obj members)) (hfirst : text.head? = some 123)
      (hlast : text.getLast? = some 125) (hline : lf ∉ text) :
      Encodes loads members (before ++ text ++ after ++ [lf])
  | framed {name before after headers body : Bytes} (hname : lower name = headerName)
      (hbefore : Blank before) (hafter : Blank after) (hheaders : Headers headers)
      (hloads : loads body = .ok (.obj members)) (hsize : body.length ≤ maxSize) :
      Encodes loads members (name ++ [colon] ++ before ++
        ascii (Nat.toDigits 10 body.length) ++ after ++ lf :: (headers ++ body))

/-- A stream of objects, each written in one of the ways, with blank lines between. -/
inductive Transcript (loads : Loads) : List Members → Bytes → Prop
  | nil {gap blank : Bytes} (hgap : BlankLines gap) (hblank : Blank blank) :
      Transcript loads [] (gap ++ blank)
  | cons {gap frame rest : Bytes} {members : Members} {more : List Members}
      (hgap : BlankLines gap) (hframe : Encodes loads members frame)
      (hrest : Transcript loads more rest) :
      Transcript loads (members :: more) (gap ++ frame ++ rest)

section Bytes

theorem strip_blank {bytes : Bytes} (hblank : ∀ b ∈ bytes, isSpace b = true) :
    strip bytes = [] := by
  rw [strip, List.dropWhile_eq_nil_iff.mpr hblank, List.rdropWhile_nil]

/-- What stands between white space is left, where it neither starts nor ends with it. -/
theorem strip_padded {before text after : Bytes} (hbefore : ∀ b ∈ before, isSpace b = true)
    (hafter : ∀ b ∈ after, isSpace b = true) (hfirst : ∀ b ∈ text.head?, isSpace b = false)
    (hlast : ∀ b ∈ text.getLast?, isSpace b = false) (htext : text ≠ []) :
    strip (before ++ text ++ after) = text := by
  have hfront : (text ++ after).dropWhile isSpace = text ++ after := by
    cases text with
    | nil => exact absurd rfl htext
    | cons b rest =>
        rw [List.cons_append, List.dropWhile_cons_of_neg]
        rw [hfirst b rfl]
        exact Bool.false_ne_true
  have hback : after.rdropWhile isSpace = [] := by
    rw [List.rdropWhile_eq_nil_iff]
    exact hafter
  rw [strip, List.append_assoc, List.dropWhile_append_of_pos hbefore, hfront,
    List.rdropWhile, List.reverse_append, List.dropWhile_append_of_pos, ← List.rdropWhile,
    List.rdropWhile_eq_self_iff]
  · intro hne
    rw [hlast _ (List.getLast?_eq_some_getLast hne)]
    exact Bool.false_ne_true
  · exact fun b hb => hafter b (List.mem_reverse.mp hb)

theorem behindColon_append {name rest : Bytes} (hname : colon ∉ name) :
    behindColon (name ++ colon :: rest) = rest := by
  have hall : ∀ b ∈ name, decide (b ≠ colon) = true := fun b hb =>
    decide_eq_true fun h => hname (h ▸ hb)
  rw [behindColon, List.dropWhile_append_of_pos hall, List.dropWhile_cons_of_neg (by simp)]
  rfl

/-- ASCII letters are read from their bytes. -/
theorem decode_ascii {letters : List Char} (hascii : ∀ c ∈ letters, c.toNat < 128) :
    AsciiText.decode (ascii letters) = some letters := by
  induction letters with
  | nil => rfl
  | cons c rest ih =>
      have hc := hascii c List.mem_cons_self
      have hnat : (UInt8.ofNat c.toNat).toNat = c.toNat :=
        UInt8.toNat_ofNat_of_lt' (by rw [UInt8.size]; omega)
      have hlater := ih fun d hd => hascii d (List.mem_cons_of_mem c hd)
      rw [ascii, List.map_cons, ← ascii, AsciiText.decode, dif_pos (by omega), hlater,
        Option.map_some]
      congr 2
      refine Char.ext (UInt32.toNat_inj.mp ?_)
      rw [AsciiText.charOf, UInt8.toNat_toUInt32, hnat]
      rfl

theorem digit_bounds {c : Char} (hdigit : c.isDigit = true) : 48 ≤ c.toNat ∧ c.toNat ≤ 57 :=
  Char.isDigit_iff_toNat.mp hdigit

theorem isSpace_digit {c : Char} (hdigit : c.isDigit = true) :
    isSpace (UInt8.ofNat c.toNat) = false := by
  have hbounds := digit_bounds hdigit
  have hall : (List.range 10).all fun d => !isSpace (UInt8.ofNat (48 + d)) := by decide
  have hd := List.all_eq_true.mp hall (c.toNat - 48) (List.mem_range.mpr (by omega))
  rw [Nat.add_sub_cancel' (by omega)] at hd
  simpa using hd

end Bytes

section Reading

variable {loads : Loads} {stream rest : Bytes} {members : Members}

theorem Blank.space {blank : Bytes} (hblank : Blank blank) : ∀ b ∈ blank, isSpace b = true :=
  fun b hb => (hblank b hb).1

theorem Blank.line {blank : Bytes} (hblank : Blank blank) : lf ∉ blank :=
  fun hmem => (hblank lf hmem).2 rfl

theorem readFrame_nil (loads : Loads) : readFrame loads [] = (.error .eof, []) := by
  rw [readFrame]
  rfl

/-- A line that ends is read from a stream that goes on. -/
theorem readFrame_line {line : Bytes} (hline : lf ∉ line) (rest : Bytes) :
    readFrame loads (line ++ lf :: rest) =
      if strip (line ++ [lf]) = [] then readFrame loads rest
      else if headerName ++ [colon] <+: lower (strip (line ++ [lf])) then
        readBody loads (strip (line ++ [lf])) rest
      else (loadFrame loads (strip (line ++ [lf])), rest) := by
  have hne : line ++ [lf] ≠ [] := List.append_ne_nil_of_right_ne_nil line (List.cons_ne_nil _ _)
  rw [readFrame]
  simp only [readLine_of_line hline, hne, dite_false]

/-- Lines of white space are skipped. -/
theorem readFrame_blankLines {gap : Bytes} (hgap : BlankLines gap) (stream : Bytes) :
    readFrame loads (gap ++ stream) = readFrame loads stream := by
  induction hgap with
  | nil => rfl
  | @line blank gap hblank _ ih =>
      have hspace : ∀ b ∈ blank ++ [lf], isSpace b = true := by
        intro b hb
        rcases List.mem_append.mp hb with hb | hb
        · exact hblank.space b hb
        · rw [List.mem_singleton.mp hb]
          rfl
      rw [List.append_assoc, List.cons_append, readFrame_line hblank.line,
        if_pos (strip_blank hspace), ih]

/-- A stream that ends with white space has no frame. -/
theorem readFrame_blank {blank : Bytes} (hblank : Blank blank) :
    readFrame loads blank = (.error .eof, []) := by
  cases hsplit : blank with
  | nil => exact readFrame_nil loads
  | cons b more =>
      have hread : readLine lf blank = (blank, []) := readLine_of_not_mem hblank.line
      rw [← hsplit, readFrame, hread]
      simp only [hsplit, List.cons_ne_nil, dite_false]
      rw [← hsplit, if_pos (strip_blank hblank.space), readFrame_nil]

/-- The further header lines are read up to the empty one. -/
theorem skipHeaders_append {headers : Bytes} (hheaders : Headers headers) (stream : Bytes) :
    skipHeaders (headers ++ stream) = stream := by
  induction hheaders with
  | last =>
      rw [skipHeaders]
      simp [readLine]
  | lastCr =>
      rw [skipHeaders]
      simp [readLine, cr, lf]
  | @header line headers hline hnonempty hsome _ ih =>
      have hne : line ++ [lf] ≠ [] :=
        List.append_ne_nil_of_right_ne_nil line (List.cons_ne_nil _ _)
      have hmore : ¬ (line ++ [lf] = [cr, lf] ∨ line ++ [lf] = [lf]) := by
        rintro (h | h)
        · have hsame : line ++ [lf] = [cr] ++ [lf] := h
          exact hsome (List.append_cancel_right hsame)
        · exact hnonempty (List.append_left_eq_self.mp h)
      rw [List.append_assoc, List.cons_append, skipHeaders]
      simp only [readLine_of_line hline, hne, dite_false, if_neg hmore, ih]

/-- An object's text on a line of its own is read. -/
theorem readFrame_text {before text after : Bytes} (hbefore : Blank before)
    (hafter : Blank after) (hloads : loads text = .ok (.obj members))
    (hfirst : text.head? = some 123) (hlast : text.getLast? = some 125) (hline : lf ∉ text)
    (stream : Bytes) :
    readFrame loads (before ++ text ++ after ++ [lf] ++ stream) = (.ok members, stream) := by
  have hall : lf ∉ before ++ text ++ after := by
    simp only [List.mem_append, not_or]
    exact ⟨⟨hbefore.line, hline⟩, hafter.line⟩
  have htext : text ≠ [] := by
    rintro rfl
    cases hfirst
  have hstrip : strip (before ++ text ++ after ++ [lf]) = text := by
    rw [List.append_assoc (before ++ text)]
    refine strip_padded hbefore.space ?_ ?_ ?_ htext
    · intro b hb
      rcases List.mem_append.mp hb with hb | hb
      · exact hafter.space b hb
      · rw [List.mem_singleton.mp hb]
        rfl
    · rw [hfirst]
      rintro b ⟨⟩
      rfl
    · rw [hlast]
      rintro b ⟨⟩
      rfl
  have hheader : ¬ headerName ++ [colon] <+: lower text := by
    intro hbegins
    cases text with
    | nil => exact htext rfl
    | cons b more =>
        cases hfirst
        exact absurd (List.cons_prefix_cons.mp hbegins).1 (by decide)
  rw [List.append_assoc _ [lf], List.singleton_append, readFrame_line hall, hstrip,
    if_neg htext, if_neg hheader, loadFrame, hloads]

/-- A header's name has no white space and no colon. -/
theorem plain_name {name : Bytes} (hname : lower name = headerName) :
    ∀ b ∈ name, isSpace b = false ∧ b ≠ colon ∧ b ≠ lf := by
  have hall : ([32, 9, 10, 11, 12, 13, 58] : Bytes).all
      fun b => decide (lowerByte b ∉ headerName) := by decide
  intro b hb
  have hmem : lowerByte b ∈ headerName := by
    rw [← hname]
    exact List.mem_map_of_mem hb
  have hnone : b ∉ ([32, 9, 10, 11, 12, 13, 58] : Bytes) := fun hspace =>
    of_decide_eq_true (List.all_eq_true.mp hall b hspace) hmem
  simp only [List.mem_cons, List.not_mem_nil, or_false, not_or] at hnone
  obtain ⟨h32, h9, h10, h11, h12, h13, h58⟩ := hnone
  refine ⟨?_, h58, h10⟩
  simp [isSpace, h32, h9, h10, h11, h12, h13]

theorem digit_byte {b : UInt8} {n : Nat} (hb : b ∈ ascii (Nat.toDigits 10 n)) :
    isSpace b = false := by
  obtain ⟨c, hc, rfl⟩ := List.mem_map.mp hb
  exact isSpace_digit (Nat.isDigit_of_mem_toDigits (by decide) (by decide) hc)

theorem digits_ne_nil (n : Nat) : ascii (Nat.toDigits 10 n) ≠ [] := by
  rw [ascii, ne_eq, List.map_eq_nil_iff]
  exact Nat.toDigits_ne_nil

/-- The number of a header is read behind white space. -/
theorem decode_size {name before : Bytes} {size : Nat} (hname : colon ∉ name)
    (hbefore : Blank before) :
    AsciiText.decode (strip (behindColon
      (name ++ [colon] ++ before ++ ascii (Nat.toDigits 10 size)))) =
        some (Nat.toDigits 10 size) := by
  have hsplit : name ++ [colon] ++ before ++ ascii (Nat.toDigits 10 size) =
      name ++ colon :: (before ++ ascii (Nat.toDigits 10 size) ++ []) := by simp
  rw [hsplit, behindColon_append hname, strip_padded hbefore.space (List.forall_mem_nil _)
    (fun b hb => digit_byte (List.mem_of_mem_head? hb))
    (fun b hb => digit_byte (List.mem_of_mem_getLast? hb)) (digits_ne_nil size)]
  refine decode_ascii fun c hc => ?_
  have hbounds := digit_bounds (Nat.isDigit_of_mem_toDigits (by decide) (by decide) hc)
  omega

theorem pyInt_toDigits {n : Nat} (hsize : n ≤ maxSize) :
    pyInt (String.ofList (Nat.toDigits 10 n)) = some (n : Int) := by
  have hshort : (Nat.toDigits 10 n).length ≤ 19 := by
    rw [Nat.length_toDigits_le_iff (by decide) (by decide)]
    exact hsize.trans_lt (by decide)
  have hdigits : (Nat.toDigits 10 n).length ≤ maxStrDigits := hshort.trans (by decide)
  rw [← Nat.repr_eq_ofList_toDigits, ← Nat.toString_eq_repr]
  exact pyInt_toString hdigits

/-- A body of the announced length is read behind its headers. -/
theorem readBody_framed {header headers body : Bytes}
    (hheader : AsciiText.decode (strip (behindColon header)) =
      some (Nat.toDigits 10 body.length))
    (hsize : body.length ≤ maxSize) (hheaders : Headers headers)
    (hloads : loads body = .ok (.obj members)) (stream : Bytes) :
    readBody loads header (headers ++ body ++ stream) = (.ok members, stream) := by
  have hread : readSize (body.length : Int) (body ++ stream) = (.ok body, stream) := by
    have hindex : ¬ ((body.length : Int) < -(maxSize : Int) - 1 ∨
        (maxSize : Int) < (body.length : Int)) := by omega
    have hplain : ¬ (body.length : Int) = -1 ∧ ¬ (body.length : Int) < 0 := by omega
    rw [readSize, if_neg hindex, if_neg hplain.1, if_neg hplain.2]
    simp
  rw [readBody, hheader]
  simp only [pyInt_toDigits hsize, List.append_assoc, skipHeaders_append hheaders, hread,
    loadFrame, hloads]

/-- An object behind a header is read. -/
theorem readFrame_framed {name before after headers body : Bytes}
    (hname : lower name = headerName) (hbefore : Blank before) (hafter : Blank after)
    (hheaders : Headers headers) (hloads : loads body = .ok (.obj members))
    (hsize : body.length ≤ maxSize) (stream : Bytes) :
    readFrame loads (name ++ [colon] ++ before ++ ascii (Nat.toDigits 10 body.length) ++ after ++
      lf :: (headers ++ body) ++ stream) = (.ok members, stream) := by
  have hplain := plain_name hname
  have hne : name ≠ [] := by
    rintro rfl
    cases hname
  have hline : lf ∉ name ++ [colon] ++ before ++ ascii (Nat.toDigits 10 body.length) ++ after := by
    simp only [List.mem_append, not_or]
    refine ⟨⟨⟨⟨fun h => (hplain lf h).2.2 rfl, by decide⟩, hbefore.line⟩, fun h => ?_⟩,
      hafter.line⟩
    exact absurd (digit_byte h) (by decide)
  have hstrip : strip (name ++ [colon] ++ before ++ ascii (Nat.toDigits 10 body.length) ++ after ++
      [lf]) = name ++ [colon] ++ before ++ ascii (Nat.toDigits 10 body.length) := by
    have hpadded := @strip_padded []
      (name ++ [colon] ++ before ++ ascii (Nat.toDigits 10 body.length)) (after ++ [lf])
      (List.forall_mem_nil _) ?_ ?_ ?_ ?_
    · rwa [List.nil_append, ← List.append_assoc] at hpadded
    · intro b hb
      rcases List.mem_append.mp hb with hb | hb
      · exact hafter.space b hb
      · rw [List.mem_singleton.mp hb]
        rfl
    · intro b hb
      rw [List.append_assoc, List.append_assoc, List.head?_append_of_ne_nil _ hne] at hb
      exact (hplain b (List.mem_of_mem_head? hb)).1
    · intro b hb
      rw [List.getLast?_append_of_ne_nil _ (digits_ne_nil _)] at hb
      exact digit_byte (List.mem_of_mem_getLast? hb)
    · simp
  have hheader : headerName ++ [colon] <+:
      lower (name ++ [colon] ++ before ++ ascii (Nat.toDigits 10 body.length)) := by
    have hcolon : lower [colon] = [colon] := rfl
    rw [lower, List.append_assoc, List.map_append, List.map_append, ← lower, ← lower, hname, hcolon]
    exact List.prefix_append _ _
  rw [List.append_assoc _ (lf :: (headers ++ body)), List.cons_append, readFrame_line hline,
    hstrip, if_neg (by simp), if_pos hheader]
  exact readBody_framed (decode_size (fun h => (hplain colon h).2.1 rfl) hbefore) hsize hheaders
    hloads stream

theorem readFrame_encoded {frame : Bytes} (hframe : Encodes loads members frame)
    (stream : Bytes) : readFrame loads (frame ++ stream) = (.ok members, stream) := by
  cases hframe with
  | line hbefore hafter hloads hfirst hlast hline =>
      exact readFrame_text hbefore hafter hloads hfirst hlast hline stream
  | framed hname hbefore hafter hheaders hloads hsize =>
      exact readFrame_framed hname hbefore hafter hheaders hloads hsize stream

theorem readSize_suffix (size : Int) (stream : Bytes) : (readSize size stream).2 <:+ stream := by
  rw [readSize]
  split
  · exact List.suffix_refl stream
  · split
    · exact List.nil_suffix
    · split
      · exact List.suffix_refl stream
      · exact List.drop_suffix _ stream

theorem readLine_suffix (stream : Bytes) : (readLine lf stream).2 <:+ stream :=
  ⟨_, readLine_append stream⟩

theorem skipHeaders_suffix (stream : Bytes) : skipHeaders stream <:+ stream := by
  fun_induction skipHeaders stream with
  | case1 stream line hend => exact readLine_suffix stream
  | case2 stream line hend hempty => exact readLine_suffix stream
  | case3 stream line hend hmore ih => exact ih.trans (readLine_suffix stream)

theorem readBody_suffix (header stream : Bytes) : (readBody loads header stream).2 <:+ stream := by
  rw [readBody]
  split
  · exact List.suffix_refl stream
  · split
    · exact skipHeaders_suffix stream
    · next size _ =>
        have hsize := (readSize_suffix size (skipHeaders stream)).trans (skipHeaders_suffix stream)
        split
        · next heq => rwa [heq] at hsize
        · next heq => rwa [heq] at hsize

/-- Nothing is put back: what is left of a stream is its end. -/
theorem readFrame_suffix (stream : Bytes) :
    (readFrame loads stream).2 <:+ (readLine lf stream).2 := by
  fun_induction readFrame loads stream with
  | case1 stream line hend => exact List.suffix_refl _
  | case2 stream line hend stripped hblank ih => exact ih.trans (readLine_suffix _)
  | case3 stream line hend stripped hblank hheader => exact readBody_suffix _ _
  | case4 stream line hend stripped hblank hheader => exact List.suffix_refl _

/-- A read takes at least a byte of a stream that has one. -/
theorem length_readFrame_lt (hstream : stream ≠ []) :
    (readFrame loads stream).2.length < stream.length :=
  (readFrame_suffix stream).length_le.trans_lt
    (length_readLine_lt fun hend => hstream ((readLine_eq_nil_iff stream).mp hend))

theorem ne_nil_of_readFrame (hread : (readFrame loads stream).1 = .ok members) : stream ≠ [] := by
  rintro rfl
  rw [readFrame_nil] at hread
  cases hread

end Reading

/-- The frames that reads of a stream return, and how the last read fails. -/
def frames (loads : Loads) (stream : Bytes) : List Members × ReadFailure :=
  let read := readFrame loads stream
  match _hread : read.1 with
  | .ok members => (members :: (frames loads read.2).1, (frames loads read.2).2)
  | .error e => ([], e)
termination_by stream.length
decreasing_by all_goals exact length_readFrame_lt (ne_nil_of_readFrame _hread)

section Frames

variable {loads : Loads} {stream rest : Bytes} {members : Members}

theorem frames_of_ok (hread : readFrame loads stream = (.ok members, rest)) :
    frames loads stream = (members :: (frames loads rest).1, (frames loads rest).2) := by
  rw [frames]
  split
  · next read hok =>
      simp only [hread, Except.ok.injEq] at hok
      rw [hread, hok]
  · next e herror => simp [hread] at herror

theorem frames_of_error {e : ReadFailure} (hread : readFrame loads stream = (.error e, rest)) :
    frames loads stream = ([], e) := by
  rw [frames]
  split
  · next read hok => simp [hread] at hok
  · next failure herror =>
      simp only [hread, Except.error.injEq] at herror
      rw [herror]

end Frames

/-- Objects written in either way are read back in order, and then the stream ends. -/
theorem frames_transcript (loads : Loads) {objects : List Members} {stream : Bytes}
    (htranscript : Transcript loads objects stream) :
    frames loads stream = (objects, .eof) := by
  induction htranscript with
  | nil hgap hblank =>
      exact frames_of_error (by rw [readFrame_blankLines hgap, readFrame_blank hblank])
  | @cons gap frame rest members more hgap hframe _ ih =>
      have hread : readFrame loads (gap ++ frame ++ rest) = (.ok members, rest) := by
        rw [List.append_assoc, readFrame_blankLines hgap, readFrame_encoded hframe]
      rw [frames_of_ok hread, ih]

namespace FramingWitness

/-- `json.loads` of the texts of the stream below. -/
def loads : Loads := fun bytes =>
  if bytes = [123, 125] then .ok (.obj []) else .error .value

/-- A line, and a frame with one more header behind a blank line. -/
theorem mixed_stream : Transcript loads [[], []]
    ([] ++ ([] ++ [123, 125] ++ [] ++ [lf]) ++ ([cr] ++ lf :: [] ++
      (headerName ++ [colon] ++ [32] ++ ascii (Nat.toDigits 10 [123, 125].length) ++ [cr] ++
        lf :: (([120, 58, 121] ++ lf :: [cr, lf]) ++ [123, 125])) ++ ([] ++ []))) := by
  have hblank : Blank [] := List.forall_mem_nil _
  have hcr : Blank [cr] := by
    intro b hb
    rw [List.mem_singleton.mp hb]
    exact ⟨rfl, by decide⟩
  have hspace : Blank [32] := by
    intro b hb
    rw [List.mem_singleton.mp hb]
    exact ⟨rfl, by decide⟩
  have hheaders : Headers ([120, 58, 121] ++ lf :: [cr, lf]) :=
    .header (by decide) (List.cons_ne_nil _ _) (by decide) .lastCr
  have hframed := @Encodes.framed loads [] headerName [32] [cr] _ [123, 125] rfl hspace hcr
    hheaders rfl (by decide)
  refine .cons .nil (.line hblank hblank rfl rfl rfl (by decide)) ?_
  exact .cons (.line hcr .nil) hframed (.nil .nil hblank)

theorem mixed_stream_read : frames loads
    ([] ++ ([] ++ [123, 125] ++ [] ++ [lf]) ++ ([cr] ++ lf :: [] ++
      (headerName ++ [colon] ++ [32] ++ ascii (Nat.toDigits 10 [123, 125].length) ++ [cr] ++
        lf :: (([120, 58, 121] ++ lf :: [cr, lf]) ++ [123, 125])) ++ ([] ++ []))) =
      ([[], []], .eof) :=
  frames_transcript loads mixed_stream

end FramingWitness

end McpFraming

end HermesPipeline

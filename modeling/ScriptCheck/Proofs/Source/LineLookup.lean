import Mathlib.Data.List.DropRight
import ScriptCheck.Proofs.Source.Lines

/-!
What the lookup of a line answers, byte by byte. An offset counts the bytes of a text in UTF-8, and may
fall between two bytes of one character. The line that holds the byte at an offset starts behind the last
newline before the byte and ends with the first newline from there on, or where the text ends; its number
is one more than the newlines before the byte. Past the last byte there is no line.
-/

namespace ScriptCheck

/-! ### Bytes -/

/-- The bytes of a text in UTF-8. -/
def utf8 (cs : List Char) : List UInt8 := cs.flatMap String.utf8EncodeChar

/-- The only byte of a newline. -/
def newlineByte : UInt8 := 10

@[simp] theorem utf8_append (a b : List Char) : utf8 (a ++ b) = utf8 a ++ utf8 b :=
  List.flatMap_append

theorem utf8_cons (c : Char) (cs : List Char) : utf8 (c :: cs) = String.utf8EncodeChar c ++ utf8 cs :=
  List.flatMap_cons

@[simp] theorem utf8_newline : utf8 ['\n'] = [newlineByte] := by decide

@[simp] theorem length_utf8 (cs : List Char) : (utf8 cs).length = byteLength cs := by
  induction cs with
  | nil => rfl
  | cons c cs ih =>
    rw [utf8_cons, List.length_append, String.length_utf8EncodeChar, ih, byteLength]

theorem utf8_toList (s : String) : utf8 s.toList = s.toByteArray.data.toList := by
  rw [← String.utf8Encode_toList, List.utf8Encode, List.toList_data_toByteArray, utf8]

theorem byteLength_toList (s : String) : byteLength s.toList = s.utf8ByteSize := by
  rw [← length_utf8, utf8_toList, ← String.size_toByteArray]
  rfl

/-- A text is known by its bytes. -/
theorem utf8_injective {a b : List Char} (h : utf8 a = utf8 b) : a = b := by
  have hbytes : (String.ofList a).toByteArray = (String.ofList b).toByteArray := by
    rw [String.toByteArray_ofList, String.toByteArray_ofList, List.utf8Encode, List.utf8Encode]
    exact congrArg List.toByteArray h
  exact String.ofList_injective (String.toByteArray_inj.1 hbytes)

/-- The bytes of a character of more than one byte are above all single ones. -/
theorem le_of_mem_encoded {c : Char} {b : UInt8} (hc : 127 < c.val.toNat)
    (hb : b ∈ String.utf8EncodeChar c) : 128 ≤ b.toNat := by
  rw [String.utf8EncodeChar, if_neg (by omega)] at hb
  split_ifs at hb <;> simp only [List.mem_cons, List.not_mem_nil, or_false] at hb
  · rcases hb with rfl | rfl <;> simp <;> omega
  · rcases hb with rfl | rfl | rfl <;> simp <;> omega
  · rcases hb with rfl | rfl | rfl | rfl <;> simp <;> omega

theorem newlineByte_notMem_encoded {c : Char} (hc : c ≠ '\n') :
    newlineByte ∉ String.utf8EncodeChar c := by
  intro hmem
  rcases Nat.lt_or_ge 127 c.val.toNat with hlarge | hsmall
  · have hbyte := le_of_mem_encoded hlarge hmem
    exact absurd hbyte (by decide)
  · rw [String.utf8EncodeChar, if_pos hsmall, List.mem_singleton] at hmem
    have hcode : 10 = c.val.toNat % 256 := congrArg UInt8.toNat hmem
    refine hc (Char.ext (UInt32.toNat_inj.1 ?_))
    show c.val.toNat = 10
    omega

theorem newlineByte_notMem_utf8 {cs : List Char} (h : '\n' ∉ cs) : newlineByte ∉ utf8 cs := by
  intro hmem
  obtain ⟨c, hc, hbyte⟩ := List.mem_flatMap.1 hmem
  refine newlineByte_notMem_encoded ?_ hbyte
  rintro rfl
  exact h hc

/-- A text has as many newlines as its bytes. -/
theorem count_utf8 (cs : List Char) : (utf8 cs).count newlineByte = cs.count '\n' := by
  induction cs with
  | nil => rfl
  | cons c cs ih =>
    rw [utf8_cons, List.count_append, ih, List.count_cons, Nat.add_comm]
    congr 1
    by_cases hc : c = '\n'
    · subst hc
      rfl
    · rw [List.count_eq_zero.2 (newlineByte_notMem_encoded hc), if_neg (by simpa using hc)]

/-! ### The line that holds a byte -/

/-- The bytes behind the last newline. -/
def behindNewline (bytes : List UInt8) : List UInt8 := bytes.rtakeWhile (· ≠ newlineByte)

/-- The bytes up to the first newline, with this newline. -/
def throughNewline (bytes : List UInt8) : List UInt8 :=
  bytes.takeWhile (· ≠ newlineByte) ++ (bytes.dropWhile (· ≠ newlineByte)).take 1

/-- A place is that of the byte at an offset: its number counts the newlines before the byte, its text
goes from behind the last of them through the next newline, and its column counts the bytes of the text
before this one. -/
structure LinePlace.Locates (place : LinePlace) (bytes : List UInt8) (offset : Nat) : Prop where
  number : place.number = (bytes.take offset).count newlineByte + 1
  text : utf8 place.text = behindNewline (bytes.take offset) ++ throughNewline (bytes.drop offset)
  column : place.column = (behindNewline (bytes.take offset)).length

theorem LinePlace.Locates.unique {place place' : LinePlace} {bytes : List UInt8} {offset : Nat}
    (h : place.Locates bytes offset) (h' : place'.Locates bytes offset) : place = place' := by
  obtain ⟨number, text, column⟩ := place
  obtain ⟨number', text', column'⟩ := place'
  have hnumber := h.number.trans h'.number.symm
  have htext := utf8_injective (h.text.trans h'.text.symm)
  have hcolumn := h.column.trans h'.column.symm
  simp only at hnumber htext hcolumn
  rw [hnumber, htext, hcolumn]

theorem ne_newlineByte {bytes : List UInt8} (h : newlineByte ∉ bytes) (b : UInt8) (hb : b ∈ bytes) :
    decide (b ≠ newlineByte) = true :=
  decide_eq_true fun heq => h (heq ▸ hb)

/-- Bytes without a newline are taken along whole. -/
theorem behindNewline_append {bytes : List UInt8} (h : newlineByte ∉ bytes) (front : List UInt8) :
    behindNewline (front ++ bytes) = behindNewline front ++ bytes := by
  have hreverse (b : UInt8) (hb : b ∈ bytes.reverse) := ne_newlineByte h b (List.mem_reverse.1 hb)
  rw [behindNewline, List.rtakeWhile, List.reverse_append, List.takeWhile_append_of_pos hreverse,
    List.reverse_append, List.reverse_reverse, behindNewline, List.rtakeWhile]

theorem behindNewline_newline (front : List UInt8) : behindNewline (front ++ [newlineByte]) = [] := by
  simp [behindNewline]

theorem throughNewline_append {bytes : List UInt8} (h : newlineByte ∉ bytes) (rest : List UInt8) :
    throughNewline (bytes ++ rest) = bytes ++ throughNewline rest := by
  rw [throughNewline, List.takeWhile_append_of_pos (ne_newlineByte h),
    List.dropWhile_append_of_pos (ne_newlineByte h), List.append_assoc, throughNewline]

theorem throughNewline_newline (rest : List UInt8) :
    throughNewline (newlineByte :: rest) = [newlineByte] := by
  simp [throughNewline]

namespace IsLine

variable {earlier line later : List Char} {column : Nat}

/-- The bytes before a line end with a newline, if there are any. -/
theorem behindNewline_before (h : IsLine earlier line later) : behindNewline (utf8 earlier) = [] := by
  rcases h.starts with rfl | ⟨cs, rfl⟩
  · rfl
  · rw [utf8_append, utf8_newline, behindNewline_newline]

/-- From any of its bytes on, a line goes through the next newline, and before this byte it has none. -/
theorem around_byte (h : IsLine earlier line later) (hcolumn : column < byteLength line) :
    newlineByte ∉ (utf8 line).take column ∧
      throughNewline ((utf8 line).drop column ++ utf8 later) = (utf8 line).drop column := by
  rcases h.ends with ⟨hnone, -, rfl⟩ | ⟨cs, hnone, rfl⟩
  · have hbytes := newlineByte_notMem_utf8 hnone
    refine ⟨fun hmem => hbytes (List.mem_of_mem_take hmem), ?_⟩
    rw [throughNewline_append fun hmem => hbytes (List.mem_of_mem_drop hmem)]
    exact List.append_nil _
  · have hbytes := newlineByte_notMem_utf8 hnone
    have hcs : column ≤ (utf8 cs).length := by
      have hnewline : byteLength ['\n'] = 1 := rfl
      rw [byteLength_append, hnewline] at hcolumn
      rw [length_utf8]
      omega
    rw [utf8_append, utf8_newline, List.take_append_of_le_length hcs,
      List.drop_append_of_le_length hcs, List.append_assoc]
    refine ⟨fun hmem => hbytes (List.mem_of_mem_take hmem), ?_⟩
    rw [throughNewline_append fun hmem => hbytes (List.mem_of_mem_drop hmem), List.singleton_append,
      throughNewline_newline]

/-- A line, its number and a column are the place of the byte in this column. -/
theorem locates (h : IsLine earlier line later) (hcolumn : column < byteLength line) :
    LinePlace.Locates ⟨earlier.count '\n' + 1, line, column⟩ (utf8 (earlier ++ (line ++ later)))
      (byteLength earlier + column) := by
  have hle : column ≤ (utf8 line).length := by
    rw [length_utf8]
    omega
  have htake : (utf8 (earlier ++ (line ++ later))).take (byteLength earlier + column) =
      utf8 earlier ++ (utf8 line).take column := by
    rw [utf8_append, utf8_append, ← length_utf8 earlier, List.take_length_add_append,
      List.take_append_of_le_length hle]
  have hdrop : (utf8 (earlier ++ (line ++ later))).drop (byteLength earlier + column) =
      (utf8 line).drop column ++ utf8 later := by
    rw [utf8_append, utf8_append, ← length_utf8 earlier, List.drop_length_add_append,
      List.drop_append_of_le_length hle]
  obtain ⟨hbefore, hthrough⟩ := h.around_byte hcolumn
  have hbehind : behindNewline (utf8 earlier ++ (utf8 line).take column) = (utf8 line).take column := by
    rw [behindNewline_append hbefore, h.behindNewline_before, List.nil_append]
  refine ⟨?_, ?_, ?_⟩
  · rw [htake, List.count_append, count_utf8, List.count_eq_zero.2 hbefore, Nat.add_zero]
  · rw [htake, hdrop, hbehind, hthrough, List.take_append_drop]
  · rw [htake, hbehind, List.length_take_of_le hle]

end IsLine

/-! ### Finding it -/

/-- An offset in a text stands in one of its characters. -/
theorem exists_char_at (cs : List Char) {offset : Nat} (h : offset < byteLength cs) :
    ∃ before c after k, cs = before ++ c :: after ∧ k < c.utf8Size ∧
      offset = byteLength before + k := by
  induction cs generalizing offset with
  | nil => exact absurd h (Nat.not_lt_zero offset)
  | cons c cs ih =>
    rw [byteLength] at h
    by_cases hc : offset < c.utf8Size
    · exact ⟨[], c, cs, offset, rfl, hc, (Nat.zero_add offset).symm⟩
    · obtain ⟨before, d, after, k, rfl, hk, hoffset⟩ := @ih (offset - c.utf8Size) (by omega)
      refine ⟨c :: before, d, after, k, rfl, hk, ?_⟩
      rw [byteLength]
      omega

/-- The line of a character starts where the line of what stands before it does, also if the character is
the newline that ends it. -/
theorem exists_isLine_around (before : List Char) (c : Char) (after : List Char) :
    ∃ tail later, after = tail ++ later ∧
      IsLine (before.rdropWhile (· ≠ '\n')) (before.rtakeWhile (· ≠ '\n') ++ c :: tail) later := by
  by_cases hc : c = '\n'
  · subst hc
    refine ⟨[], after, rfl, rdropWhile_newline before, .inr ⟨_, fun hmem => ?_, rfl⟩⟩
    simpa using List.mem_rtakeWhile_imp hmem
  · refine ⟨after.takeWhile (· ≠ '\n') ++ (after.dropWhile (· ≠ '\n')).take 1,
      (after.dropWhile (· ≠ '\n')).drop 1, ?_, ?_⟩
    · rw [List.append_assoc, List.take_append_drop, List.takeWhile_append_dropWhile]
    · have hline := isLine_around before after hc
      rwa [lineAround, List.append_assoc, List.cons_append] at hline

/-- An offset in a text stands in one of its lines. -/
theorem exists_isLine {cs : List Char} {offset : Nat} (h : offset < byteLength cs) :
    ∃ earlier line later column, cs = earlier ++ (line ++ later) ∧ IsLine earlier line later ∧
      column < byteLength line ∧ offset = byteLength earlier + column := by
  obtain ⟨before, c, after, k, rfl, hk, rfl⟩ := exists_char_at cs h
  obtain ⟨tail, later, rfl, hline⟩ := exists_isLine_around before c after
  have hbefore : before.rdropWhile (· ≠ '\n') ++ before.rtakeWhile (· ≠ '\n') = before :=
    List.rdropWhile_append_rtakeWhile
  refine ⟨_, _, later, byteLength (before.rtakeWhile (· ≠ '\n')) + k, ?_, hline, ?_, ?_⟩
  · rw [List.append_assoc, ← List.append_assoc, hbefore, List.cons_append]
  · rw [byteLength_append, byteLength]
    omega
  · rw [← Nat.add_assoc, ← byteLength_append, hbefore]

/-- Past the last byte of a text no line is found. -/
theorem lineAt_eq_none {content : String} {offset : Nat} (h : content.utf8ByteSize ≤ offset) :
    lineAt content offset = none := by
  have hpassed : 0 + byteLength (splitLines content.toList).flatten ≤ offset := by
    rwa [Nat.zero_add, splitLines_flatten, byteLength_toList]
  rw [lineAt, ← List.append_nil (splitLines content.toList), findLine_append _ hpassed, findLine]

/-- At a byte of a text its place is found. -/
theorem exists_lineAt {content : String} {offset : Nat} (h : offset < content.utf8ByteSize) :
    ∃ place, lineAt content offset = some place ∧ place.Locates (utf8 content.toList) offset := by
  rw [← byteLength_toList] at h
  obtain ⟨earlier, line, later, column, hcontent, hline, hcolumn, rfl⟩ := exists_isLine h
  refine ⟨_, lineAt_of_isLine hcontent hline hcolumn, ?_⟩
  rw [hcontent]
  exact hline.locates hcolumn

/-- There is no line at and past the end of a text; at any byte before it the place of this byte is found,
and no other. -/
theorem lineAt_iff_locates (content : String) (offset : Nat) :
    (lineAt content offset = none ↔ content.utf8ByteSize ≤ offset) ∧
      ∀ place, lineAt content offset = some place ↔
        offset < content.utf8ByteSize ∧ place.Locates (utf8 content.toList) offset := by
  rcases Nat.lt_or_ge offset content.utf8ByteSize with hlt | hge
  · obtain ⟨found, hfound, hlocates⟩ := exists_lineAt hlt
    rw [hfound]
    refine ⟨⟨nofun, fun hge => absurd hlt (Nat.not_lt.2 hge)⟩, fun place => ⟨?_, ?_⟩⟩
    · rintro ⟨⟩
      exact ⟨hlt, hlocates⟩
    · rintro ⟨-, hplace⟩
      rw [hlocates.unique hplace]
  · rw [lineAt_eq_none hge]
    exact ⟨⟨fun _ => hge, fun _ => rfl⟩, fun place =>
      ⟨nofun, fun hplace => absurd hplace.1 (Nat.not_lt.2 hge)⟩⟩

/-- The second byte of a character, and the newline of an empty line. -/
example : lineAt "a\né\n\nb" 3 = some ⟨2, ['é', '\n'], 1⟩ ∧
    lineAt "a\né\n\nb" 5 = some ⟨3, ['\n'], 0⟩ := by decide

end ScriptCheck

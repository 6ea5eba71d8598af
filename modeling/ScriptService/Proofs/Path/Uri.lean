import ScriptService.Path.Uri
import ScriptService.Proofs.Failure
import ScriptService.Proofs.Path.Basic
import ScriptService.Proofs.Text.Utf8

/-!
# From paths to URIs and back

What is written with escapes is read back when they are resolved once
(`unescape_encode`). A reader that resolves them once more leaves a text as it is
if no escape stands in it (`unescape_of_not_hasEscape`), and shortens it otherwise
(`length_unescape_lt`). `toPath_ofText` says which path the URI of a text is read
as.
-/

namespace ScriptService.Uri

open Text

/-! ## Escapes -/

/-- Characters of a URI's path as it is written: none that ends the path, and none that is left out
when a URI is read. -/
def isWritten (c : Char) : Bool :=
  0x20 < c.toNat && c.toNat < 0x80 && c != '?' && c != '#'

theorem exists_byte (b : UInt8) : ∃ n < 256, b = UInt8.ofNat n :=
  ⟨b.toNat, b.toNat_lt, (UInt8.ofNat_toNat).symm⟩

theorem isWritten_of_mem_encodeByte {b : UInt8} {c : Char} (h : c ∈ encodeByte b) :
    isWritten c = true := by
  have hall : ∀ n < 256, (encodeByte (UInt8.ofNat n)).all isWritten = true := by decide +kernel
  obtain ⟨n, hn, rfl⟩ := exists_byte b
  exact List.all_eq_true.mp (hall n hn) c h

/-- Whether a text is a character that stands for a byte as it is, or an escape of the byte. -/
def standsFor (b : UInt8) : List Char → Bool
  | [c] => c != '%' && String.utf8EncodeChar c == [b]
  | [p, x, y] => p == '%' && escapedByte? x y == some b
  | _ => false

/-- How a byte is written: as the character of its own, or as a percent sign and two digits. -/
theorem encodeByte_cases (b : UInt8) :
    (∃ c, encodeByte b = [c] ∧ c ≠ '%' ∧ String.utf8EncodeChar c = [b]) ∨
      ∃ x y, encodeByte b = ['%', x, y] ∧ escapedByte? x y = some b := by
  have hall : ∀ n < 256, standsFor (UInt8.ofNat n) (encodeByte (UInt8.ofNat n)) = true := by decide +kernel
  obtain ⟨n, hn, rfl⟩ := exists_byte b
  have h := hall n hn
  unfold standsFor at h
  split at h
  · rename_i c hc
    rw [Bool.and_eq_true, bne_iff_ne, beq_iff_eq] at h
    exact .inl ⟨c, hc, h.1, h.2⟩
  · rename_i p x y hc
    rw [Bool.and_eq_true, beq_iff_eq, beq_iff_eq] at h
    exact .inr ⟨x, y, by rw [hc, h.1], h.2⟩
  · cases h

theorem unescapeBytes_encodeByte (b : UInt8) (s : List Char) :
    unescapeBytes (encodeByte b ++ s) = b :: unescapeBytes s := by
  rcases encodeByte_cases b with ⟨c, hc, hne, hb⟩ | ⟨x, y, hc, hb⟩
  · rw [hc, List.singleton_append, unescapeBytes.eq_2 c s (fun a b t e => absurd e hne), hb,
      List.singleton_append]
  · rw [hc, List.cons_append, List.cons_append, List.cons_append, List.nil_append, unescapeBytes, hb]

/-- Resolving the escapes of written bytes gives the bytes back. -/
theorem unescapeBytes_encode (bs : List UInt8) : unescapeBytes (bs.flatMap encodeByte) = bs := by
  induction bs with
  | nil => rfl
  | cons b bs ih => rw [List.flatMap_cons, unescapeBytes_encodeByte, ih]

theorem unescapeFrom_ascii {s : List Char} (h : s.all isAscii = true) (cur : List Char) :
    unescapeFrom cur s = decodeUtf8Lossy (unescapeBytes (cur.reverse ++ s)) := by
  induction s generalizing cur with
  | nil => rw [unescapeFrom, List.append_nil]
  | cons c s ih =>
    rw [List.all_cons, Bool.and_eq_true] at h
    rw [unescapeFrom, if_pos h.1, ih h.2, List.reverse_cons, List.append_assoc, List.singleton_append]

/-- Resolving the escapes of a written text gives the text back. -/
theorem unescape_encode (s : List Char) : unescape ((encodeUtf8 s).flatMap encodeByte) = s := by
  have hascii : ((encodeUtf8 s).flatMap encodeByte).all isAscii = true := by
    refine List.all_eq_true.mpr fun c hc => ?_
    obtain ⟨b, -, hb⟩ := List.mem_flatMap.mp hc
    have hw := isWritten_of_mem_encodeByte hb
    simp only [isWritten, Bool.and_eq_true] at hw
    exact hw.1.1.2
  rw [unescape, unescapeFrom_ascii hascii, List.reverse_nil, List.nil_append, unescapeBytes_encode,
    decodeUtf8Lossy_encodeUtf8]

/-! ## Texts with escapes in them -/

/-- Whether a text starts with an escape. -/
def startsWithEscape : List Char → Bool
  | sign :: a :: b :: _ => sign == '%' && (isHexDigit a && isHexDigit b)
  | _ => false

/-- Whether a percent sign with two base-sixteen digits behind it stands in a text. -/
def hasEscape : List Char → Bool
  | [] => false
  | c :: s => startsWithEscape (c :: s) || hasEscape s

theorem escapedByte?_isSome (a b : Char) :
    (escapedByte? a b).isSome = (isHexDigit a && isHexDigit b) := by
  rw [escapedByte?, isHexDigit, isHexDigit]
  cases hexValue? a <;> cases hexValue? b <;> rfl

/-- A character that starts no escape keeps its bytes. -/
theorem unescapeBytes_cons {c : Char} {s : List Char} (h : startsWithEscape (c :: s) = false) :
    unescapeBytes (c :: s) = String.utf8EncodeChar c ++ unescapeBytes s := by
  by_cases hc : ∃ a b t, c = '%' ∧ s = a :: b :: t
  · obtain ⟨a, b, t, rfl, rfl⟩ := hc
    have hnone : escapedByte? a b = none := by
      rw [← Option.not_isSome_iff_eq_none, escapedByte?_isSome]
      exact ne_true_of_eq_false h
    rw [unescapeBytes, hnone]
    rfl
  · exact unescapeBytes.eq_2 c s fun a b t e e' => hc ⟨a, b, t, e, e'⟩

/-- An escape is one byte. -/
theorem unescapeBytes_escape {s : List Char} (h : startsWithEscape s = true) :
    ∃ a b t byte, s = '%' :: a :: b :: t ∧ unescapeBytes s = byte :: unescapeBytes t := by
  unfold startsWithEscape at h
  split at h
  · rename_i sign a b t
    rw [Bool.and_eq_true, beq_iff_eq, ← escapedByte?_isSome, Option.isSome_iff_exists] at h
    obtain ⟨rfl, byte, hbyte⟩ := h
    exact ⟨a, b, t, byte, rfl, by rw [unescapeBytes, hbyte]⟩
  · cases h

/-- A text without escapes keeps its bytes. -/
theorem unescapeBytes_of_not_hasEscape {s : List Char} (h : hasEscape s = false) :
    unescapeBytes s = encodeUtf8 s := by
  induction s with
  | nil => rfl
  | cons c s ih =>
    rw [hasEscape, Bool.or_eq_false_iff] at h
    rw [unescapeBytes_cons h.1, ih h.2, encodeUtf8_cons]

theorem isAscii_of_isHexDigit {c : Char} (h : isHexDigit c = true) : isAscii c = true := by
  have hle : c.toNat ≤ 'f'.toNat := by
    rw [isHexDigit, hexValue?] at h
    split at h
    · rename_i hd
      exact Nat.le_trans (Char.isDigit_iff_toNat.mp hd).2 (by decide)
    · split at h
      · rename_i hd
        rw [Bool.and_eq_true, decide_eq_true_eq, decide_eq_true_eq] at hd
        exact hd.2
      · split at h
        · rename_i hd
          rw [Bool.and_eq_true, decide_eq_true_eq, decide_eq_true_eq] at hd
          exact Nat.le_trans hd.2 (by decide)
        · cases h
  exact decide_eq_true (Nat.lt_of_le_of_lt hle (by decide))

/-- No escape reaches over a character outside ASCII. -/
theorem startsWithEscape_append {c : Char} (hc : isAscii c = false) (u v : List Char) :
    startsWithEscape (u ++ c :: v) = startsWithEscape u := by
  have hdigit : isHexDigit c = false := by
    rw [← Bool.not_eq_true]
    exact fun h => Bool.false_ne_true (hc.symm.trans (isAscii_of_isHexDigit h))
  have hsign : (c == '%') = false := by
    rw [beq_eq_false_iff_ne]
    rintro rfl
    cases hc
  match u, v with
  | [], [] | [], [_] | [_], [] => rfl
  | [], _ :: _ :: _ => rw [List.nil_append, startsWithEscape, hsign, Bool.false_and]; rfl
  | [_], _ :: _ => rw [List.singleton_append, startsWithEscape, hdigit, Bool.false_and, Bool.and_false]; rfl
  | [_, a], v =>
    have happend : ∀ d, [d, a] ++ c :: v = d :: a :: c :: v := fun _ => rfl
    rw [happend, startsWithEscape, hdigit, Bool.and_false, Bool.and_false]
    rfl
  | _ :: _ :: _ :: _, _ => rfl

theorem hasEscape_append_cons {c : Char} (hc : isAscii c = false) (u v : List Char) :
    hasEscape (u ++ c :: v) = (hasEscape u || hasEscape v) := by
  induction u with
  | nil =>
    have hstart := startsWithEscape_append hc [] v
    rw [List.nil_append] at hstart
    rw [List.nil_append, hasEscape.eq_2, hstart]
    rfl
  | cons d u ih =>
    have hstart := startsWithEscape_append hc (d :: u) v
    rw [List.cons_append] at hstart
    rw [List.cons_append, hasEscape, hstart, ih, hasEscape, Bool.or_assoc]

theorem unescapeFrom_of_not_hasEscape (cur : List Char) {s : List Char}
    (h : hasEscape (cur.reverse ++ s) = false) : unescapeFrom cur s = cur.reverse ++ s := by
  have hrun : ∀ {t}, hasEscape t = false → decodeUtf8Lossy (unescapeBytes t) = t := fun ht => by
    rw [unescapeBytes_of_not_hasEscape ht, decodeUtf8Lossy_encodeUtf8]
  induction s generalizing cur with
  | nil =>
    rw [List.append_nil] at h ⊢
    rw [unescapeFrom, hrun h]
  | cons c s ih =>
    rw [unescapeFrom]
    split
    · rw [ih (c :: cur) (by rwa [List.reverse_cons, List.append_assoc, List.singleton_append]),
        List.reverse_cons, List.append_assoc, List.singleton_append]
    · rename_i hc
      rw [hasEscape_append_cons (Bool.not_eq_true _ ▸ hc), Bool.or_eq_false_iff] at h
      rw [hrun h.1, ih [] h.2]
      rfl

/-- A text without escapes stays as it is. -/
theorem unescape_of_not_hasEscape {s : List Char} (h : hasEscape s = false) : unescape s = s :=
  unescapeFrom_of_not_hasEscape [] h

theorem length_unescapeBytes_le {s : List Char} (h : s.all isAscii = true) :
    (unescapeBytes s).length + (hasEscape s).toNat ≤ s.length := by
  induction hn : s.length using Nat.strongRecOn generalizing s with
  | ind n ih =>
    cases s with
    | nil => rw [← hn]; rfl
    | cons c s =>
      rw [List.length_cons] at hn
      cases hstart : startsWithEscape (c :: s) with
      | false =>
        rw [List.all_cons, Bool.and_eq_true] at h
        have hbyte : (String.utf8EncodeChar c).length = 1 := by
          have hlow : c.val.toNat ≤ 127 := Nat.le_of_lt_succ (of_decide_eq_true h.1)
          rw [String.utf8EncodeChar, if_pos hlow]
          rfl
        have hle := ih s.length (by omega) h.2 rfl
        rw [unescapeBytes_cons hstart, hasEscape, hstart, Bool.false_or, List.length_append, hbyte]
        omega
      | true =>
        obtain ⟨a, b, t, byte, hs, hbytes⟩ := unescapeBytes_escape hstart
        obtain ⟨rfl, rfl⟩ := List.cons.inj hs
        rw [List.length_cons, List.length_cons] at hn
        simp only [List.all_cons, Bool.and_eq_true] at h
        have hle := ih t.length (by omega) h.2.2.2 rfl
        have hone := Bool.toNat_le (hasEscape ('%' :: a :: b :: t))
        rw [hbytes, List.length_cons]
        omega

/-- An unescaped text is no longer than it was, and shorter if there was an escape in it. -/
theorem length_unescapeFrom_le {cur : List Char} (h : cur.all isAscii = true) (s : List Char) :
    (unescapeFrom cur s).length + (hasEscape (cur.reverse ++ s)).toNat ≤ cur.length + s.length := by
  have hrun : ∀ {t : List Char}, t.all isAscii = true →
      (decodeUtf8Lossy (unescapeBytes t.reverse)).length + (hasEscape t.reverse).toNat ≤ t.length :=
    fun {t} ht => by
      have hbytes := length_unescapeBytes_le (List.all_reverse.trans ht)
      have hdecode := length_decodeUtf8Lossy_le (unescapeBytes t.reverse)
      rw [List.length_reverse] at hbytes
      omega
  induction s generalizing cur with
  | nil =>
    rw [List.append_nil, unescapeFrom, List.length_nil]
    exact hrun h
  | cons c s ih =>
    rw [unescapeFrom]
    split
    · rename_i hc
      have hle := ih (by rw [List.all_cons, hc, h]; rfl : (c :: cur).all isAscii = true)
      rw [List.reverse_cons, List.append_assoc, List.singleton_append, List.length_cons] at hle
      rw [List.length_cons]
      omega
    · rename_i hc
      have hle := ih (rfl : [].all isAscii = true)
      have hcur := hrun h
      rw [List.reverse_nil, List.nil_append, List.length_nil] at hle
      rw [hasEscape_append_cons (Bool.not_eq_true _ ▸ hc), List.length_append, List.length_cons,
        List.length_cons]
      have hor : (hasEscape cur.reverse || hasEscape s).toNat ≤
          (hasEscape cur.reverse).toNat + (hasEscape s).toNat := by
        cases hasEscape cur.reverse <;> cases hasEscape s <;> decide
      omega

theorem length_unescape_lt {s : List Char} (h : hasEscape s = true) : (unescape s).length < s.length := by
  have hle := length_unescapeFrom_le (rfl : [].all isAscii = true) s
  rw [List.reverse_nil, List.nil_append, h, List.length_nil] at hle
  rw [unescape]
  exact Nat.lt_of_succ_le (Nat.le_trans hle (Nat.le_of_eq (Nat.zero_add _)))

theorem unescapeFrom_slash (cur s : List Char) :
    unescapeFrom (cur ++ ['/']) s = '/' :: unescapeFrom cur s := by
  have hrun : ∀ t, decodeUtf8Lossy (unescapeBytes ('/' :: t)) = '/' :: decodeUtf8Lossy (unescapeBytes t) :=
    fun t => by
      have hbytes : unescapeBytes ('/' :: t) = 0x2F :: unescapeBytes t :=
        unescapeBytes.eq_2 '/' t fun _ _ _ e => absurd e (by decide)
      have htake : takeChar 0x2F (unescapeBytes t) = (some '/', unescapeBytes t) := rfl
      rw [hbytes, decodeUtf8Lossy, decodePieces, htake]
      rfl
  induction s generalizing cur with
  | nil =>
    rw [unescapeFrom, List.reverse_append]
    exact hrun cur.reverse
  | cons c s ih =>
    rw [unescapeFrom, unescapeFrom, ← List.cons_append, ih]
    split
    · rfl
    · rw [List.reverse_append]
      exact congrArg (· ++ c :: unescapeFrom [] s) (hrun cur.reverse)

/-- A leading slash stays. -/
theorem unescape_slash (s : List Char) : unescape ('/' :: s) = '/' :: unescape s :=
  unescapeFrom_slash [] s

/-! ## Reading what was written -/

theorem clean_of_isWritten {s : List Char} (h : ∀ c ∈ s, isWritten c = true) : clean s = s := by
  have hlow : ∀ c ∈ s, 0x20 < c.toNat := fun c hc => by
    have hw := h c hc
    simp only [isWritten, Bool.and_eq_true, decide_eq_true_eq] at hw
    exact hw.1.1.1
  have hstart : s.dropWhile (·.toNat ≤ 0x20) = s := by
    cases s with
    | nil => rfl
    | cons c s =>
      rw [List.dropWhile_cons_of_neg]
      rw [decide_eq_true_eq, Nat.not_le]
      exact hlow c List.mem_cons_self
  rw [clean, hstart, List.filter_eq_self]
  intro c hc
  simp only [Bool.and_eq_true, bne_iff_ne]
  refine ⟨⟨?_, ?_⟩, ?_⟩ <;>
  · rintro rfl
    exact absurd (hlow _ hc) (by decide)

/-- The path behind the scheme and an empty host is read whole. -/
theorem parts_file {s : List Char} (h : ∀ c ∈ s, isWritten c = true) (hs : s.head? = some '/') :
    parts ("file://" ++ String.ofList s) = .ok ("file".toList, s) := by
  obtain ⟨t, rfl⟩ : ∃ t, s = '/' :: t := by
    cases s with
    | nil => cases hs
    | cons c t => exact ⟨t, by rw [List.head?_cons, Option.some.injEq] at hs; rw [hs]⟩
  have hclean : clean ("file://" ++ String.ofList ('/' :: t)).toList = "file://".toList ++ '/' :: t := by
    rw [String.toList_append, String.toList_ofList (l := '/' :: t), clean_of_isWritten]
    intro c hc
    rcases List.mem_append.mp hc with hc | hc
    · exact List.all_eq_true.mp (by decide : "file://".toList.all isWritten = true) c hc
    · exact h c hc
  have hpath : ('/' :: t).takeWhile (fun c => c != '?' && c != '#') = '/' :: t := by
    refine List.takeWhile_eq_self_iff.mpr fun c hc => ?_
    have hw := h c hc
    simp only [isWritten, Bool.and_eq_true] at hw ⊢
    exact ⟨hw.1.2, hw.2⟩
  have hscheme : scheme? ("file://".toList ++ '/' :: t) = some ("file".toList, '/' :: '/' :: '/' :: t) := by
    have htake : ("file://".toList ++ '/' :: t).takeWhile (· != ':') = "file".toList := rfl
    rw [scheme?, htake]
    rfl
  rw [parts, hclean, hscheme]
  exact congrArg (fun path => Except.ok ("file".toList, path)) hpath

theorem toPath_ofText {s : String} (h : s.toList.head? = some '/') :
    toPath (ofText s) = .ok (Path.ofString (String.ofList (unescape s.toList))) := by
  have hwritten : ∀ c ∈ (encodeUtf8 s.toList).flatMap encodeByte, isWritten c = true := fun c hc => by
    obtain ⟨b, -, hb⟩ := List.mem_flatMap.mp hc
    exact isWritten_of_mem_encodeByte hb
  have hslash : ((encodeUtf8 s.toList).flatMap encodeByte).head? = some '/' := by
    cases hs : s.toList with
    | nil => rw [hs] at h; cases h
    | cons c t =>
      rw [hs, List.head?_cons, Option.some.injEq] at h
      rw [h]
      rfl
  rw [toPath, ofText, parts_file hwritten hslash]
  exact congrArg (fun path => Except.ok (Path.ofString (String.ofList (unescape path)))) (unescape_encode _)

/-- Different texts have different URIs. -/
theorem ofText_inj {s t : String} : ofText s = ofText t ↔ s = t := by
  refine ⟨fun h => ?_, congrArg ofText⟩
  have hlist : (encodeUtf8 s.toList).flatMap encodeByte = (encodeUtf8 t.toList).flatMap encodeByte := by
    have happend := congrArg String.toList h
    rw [ofText, ofText, String.toList_append, String.toList_append] at happend
    simpa using happend
  rw [← String.toList_inj, ← unescape_encode s.toList, hlist, unescape_encode]

/-- What is read from a URI is a path of names. -/
theorem named_of_toPath {uri : String} {p : Path} (h : toPath uri = .ok p) : p.Named := by
  rw [toPath, bind_eq_ok] at h
  obtain ⟨⟨scheme, path⟩, -, h⟩ := h
  dsimp only at h
  split at h <;>
  · obtain rfl := Except.ok.inj h
    exact Path.named_ofString _

theorem ofPath_eq (cwd p : Path) :
    ofPath cwd p = if '\x00' ∈ p.text.toList then .error .nulInPath
      else .ok (ofText (Path.resolve cwd p).text) := by
  rw [ofPath]
  simp only [List.contains_eq_mem, decide_eq_true_eq]

theorem ofPath_eq_ok_iff {cwd p : Path} {uri : String} :
    ofPath cwd p = .ok uri ↔ '\x00' ∉ p.text.toList ∧ ofText (Path.resolve cwd p).text = uri := by
  rw [ofPath_eq]
  split
  · rename_i h
    exact ⟨nofun, fun hno => absurd h hno.1⟩
  · rename_i h
    rw [Except.ok.injEq, and_iff_right h]

end ScriptService.Uri

import ScriptService.Text.Utf8

/-!
# Reading the bytes of a text

The bytes of a character are read back (`takeChar_encode`), hence those of a text
(`decodePieces_encodeUtf8`). A strict reader and one that replaces read well-formed
bytes alike (`decodeUtf8Lossy_of_eq_some`); in bytes that are not, the latter leaves
a mark (`replacement_mem_decodeUtf8Lossy`) which a one-byte encoding does not have.
-/

namespace ScriptService.Text

/-! ## Bytes by number -/

theorem toNat_byte {n : Nat} (h : n < 256) : (UInt8.ofNat n).toNat = n := by
  rw [UInt8.toNat_ofNat']
  exact Nat.mod_eq_of_lt h

theorem byte_lt {n : Nat} (h : n < 256) (b : UInt8) : UInt8.ofNat n < b ↔ n < b.toNat := by
  rw [UInt8.lt_iff_toNat_lt, toNat_byte h]

theorem byte_eq {n : Nat} (h : n < 256) (b : UInt8) : UInt8.ofNat n = b ↔ n = b.toNat := by
  rw [← UInt8.toNat_inj, toNat_byte h]

/-- What a lead byte promises, by its number. -/
theorem leadBits?_byte {n : Nat} (h : n < 256) :
    leadBits? (UInt8.ofNat n) =
      if n < 0x80 then some (n, [])
      else if n < 0xC2 then none
      else if n < 0xE0 then some (n - 0xC0, [{}])
      else if n = 0xE0 then some (0, [⟨0xA0, 0xBF⟩, {}])
      else if n = 0xED then some (0xD, [⟨0x80, 0x9F⟩, {}])
      else if n < 0xF0 then some (n - 0xE0, [{}, {}])
      else if n = 0xF0 then some (0, [⟨0x90, 0xBF⟩, {}, {}])
      else if n < 0xF4 then some (n - 0xF0, [{}, {}, {}])
      else if n = 0xF4 then some (4, [⟨0x80, 0x8F⟩, {}, {}])
      else none := by
  simp only [leadBits?, byte_lt h, byte_eq h, toNat_byte h]
  rfl

/-- A byte that continues a character adds its six bits. -/
theorem takeTail_byte {m : Nat} {t : Tail} (hm : m < 64) (hlo : t.lo.toNat ≤ m + 0x80)
    (hhi : m + 0x80 ≤ t.hi.toNat) (n : Nat) (ts : List Tail) (bs : List UInt8) :
    takeTail n (t :: ts) (UInt8.ofNat (m + 0x80) :: bs) = takeTail (n * 64 + m) ts bs := by
  have hb : (UInt8.ofNat (m + 0x80)).toNat = m + 0x80 := toNat_byte (by omega)
  have hin : (decide (t.lo ≤ UInt8.ofNat (m + 0x80)) && decide (UInt8.ofNat (m + 0x80) ≤ t.hi)) = true := by
    rw [Bool.and_eq_true, decide_eq_true_eq, decide_eq_true_eq, UInt8.le_iff_toNat_le,
      UInt8.le_iff_toNat_le, hb]
    exact ⟨hlo, hhi⟩
  rw [takeTail, if_pos hin, hb, Nat.add_sub_cancel]

/-- A lead byte of two bytes more. The second one must make up for a lead of no bits of its own, and
must not lead to half of a surrogate pair. -/
theorem leadBits?_three {q m : Nat} (hq : q < 16) (hm : m < 64) (hlow : q = 0 → 32 ≤ m)
    (hhigh : q = 13 → m < 32) :
    ∃ t, leadBits? (UInt8.ofNat (q + 0xE0)) = some (q, [t, {}]) ∧ t.lo.toNat ≤ m + 0x80 ∧
      m + 0x80 ≤ t.hi.toNat := by
  rw [leadBits?_byte (by omega), if_neg (by omega), if_neg (by omega), if_neg (by omega)]
  by_cases h0 : q = 0
  · have := hlow h0
    rw [if_pos (by omega), h0]
    exact ⟨_, rfl, by change 0xA0 ≤ _; omega, by change _ ≤ 0xBF; omega⟩
  · rw [if_neg (by omega)]
    by_cases h13 : q = 13
    · have := hhigh h13
      rw [if_pos (by omega), h13]
      exact ⟨_, rfl, by change 0x80 ≤ _; omega, by change _ ≤ 0x9F; omega⟩
    · rw [if_neg (by omega), if_pos (by omega), Nat.add_sub_cancel]
      exact ⟨_, rfl, by change 0x80 ≤ _; omega, by change _ ≤ 0xBF; omega⟩

/-- A lead byte of three bytes more. The second one must make up for a lead of no bits of its own, and
must not lead beyond the last code point. -/
theorem leadBits?_four {q m : Nat} (hq : q ≤ 4) (hm : m < 64) (hlow : q = 0 → 16 ≤ m)
    (hhigh : q = 4 → m < 16) :
    ∃ t, leadBits? (UInt8.ofNat (q + 0xF0)) = some (q, [t, {}, {}]) ∧ t.lo.toNat ≤ m + 0x80 ∧
      m + 0x80 ≤ t.hi.toNat := by
  rw [leadBits?_byte (by omega), if_neg (by omega), if_neg (by omega), if_neg (by omega),
    if_neg (by omega), if_neg (by omega), if_neg (by omega)]
  by_cases h0 : q = 0
  · have := hlow h0
    rw [if_pos (by omega), h0]
    exact ⟨_, rfl, by change 0x90 ≤ _; omega, by change _ ≤ 0xBF; omega⟩
  · rw [if_neg (by omega)]
    by_cases h4 : q = 4
    · have := hhigh h4
      rw [if_neg (by omega), if_pos (by omega), h4]
      exact ⟨_, rfl, by change 0x80 ≤ _; omega, by change _ ≤ 0x8F; omega⟩
    · rw [if_pos (by omega), Nat.add_sub_cancel]
      exact ⟨_, rfl, by change 0x80 ≤ _; omega, by change _ ≤ 0xBF; omega⟩

/-! ## Characters -/

theorem takeTail_any {m : Nat} (hm : m < 64) (n : Nat) (ts : List Tail) (bs : List UInt8) :
    takeTail n ({} :: ts) (UInt8.ofNat (m + 0x80) :: bs) = takeTail (n * 64 + m) ts bs :=
  takeTail_byte hm (Nat.le_add_left _ _) (by change _ ≤ 0xBF; omega) n ts bs

/-- The bytes of a character are read back, whatever follows them. -/
theorem takeChar_encode (c : Char) (rest : List UInt8) :
    ∃ b bs, String.utf8EncodeChar c = b :: bs ∧ takeChar b (bs ++ rest) = (some c, rest) := by
  have hvalid : c.val.toNat < 0xD800 ∨ 0xDFFF < c.val.toNat ∧ c.val.toNat < 0x110000 := c.valid
  have hchar : ∀ n, n = c.val.toNat → (some (Char.ofNat n), rest) = (some c, rest) := fun n hn => by
    rw [hn]
    exact congrArg (some ·, rest) (Char.ofNat_toNat c)
  rw [String.utf8EncodeChar]
  generalize hv : c.val.toNat = v at hvalid hchar ⊢
  split
  · refine ⟨_, _, rfl, ?_⟩
    rw [takeChar, leadBits?_byte (by omega), if_pos (by omega)]
    exact hchar v rfl
  · split
    · refine ⟨_, _, rfl, ?_⟩
      rw [takeChar, leadBits?_byte (by omega), if_neg (by omega), if_neg (by omega), if_pos (by omega)]
      dsimp only [List.cons_append, List.nil_append]
      rw [takeTail_any (by omega)]
      exact hchar _ (by omega)
    · split
      · refine ⟨_, _, rfl, ?_⟩
        obtain ⟨t, ht, hlo, hhi⟩ := leadBits?_three (q := v / 4096 % 16) (m := v / 64 % 64) (by omega)
          (by omega) (by omega) (by omega)
        rw [takeChar, ht]
        dsimp only [List.cons_append, List.nil_append]
        rw [takeTail_byte (by omega) hlo hhi, takeTail_any (by omega)]
        exact hchar _ (by omega)
      · refine ⟨_, _, rfl, ?_⟩
        obtain ⟨t, ht, hlo, hhi⟩ := leadBits?_four (q := v / 262144 % 8) (m := v / 4096 % 64) (by omega)
          (by omega) (by omega) (by omega)
        rw [takeChar, ht]
        dsimp only [List.cons_append, List.nil_append]
        rw [takeTail_byte (by omega) hlo hhi, takeTail_any (by omega), takeTail_any (by omega)]
        exact hchar _ (by omega)

theorem encodeUtf8_cons (c : Char) (s : List Char) :
    encodeUtf8 (c :: s) = String.utf8EncodeChar c ++ encodeUtf8 s := rfl

/-- The bytes of a text are read back. -/
theorem decodePieces_encodeUtf8 (s : List Char) : decodePieces (encodeUtf8 s) = s.map some := by
  induction s with
  | nil => rw [encodeUtf8, List.flatMap_nil, decodePieces, List.map_nil]
  | cons c s ih =>
    obtain ⟨b, bs, hb, hc⟩ := takeChar_encode c (encodeUtf8 s)
    rw [encodeUtf8_cons, hb, List.cons_append, decodePieces, hc, ih, List.map_cons]

theorem decodeUtf8Lossy_encodeUtf8 (s : List Char) : decodeUtf8Lossy (encodeUtf8 s) = s := by
  rw [decodeUtf8Lossy, decodePieces_encodeUtf8, List.map_map]
  exact List.map_id s

theorem mapM_id_eq_some {α : Type} {xs : List (Option α)} {ys : List α} :
    xs.mapM id = some ys ↔ xs = ys.map some := by
  induction xs generalizing ys with
  | nil =>
    rw [List.mapM_nil, Option.pure_def, Option.some.injEq, eq_comm (a := []), eq_comm (a := []),
      List.map_eq_nil_iff]
  | cons x xs ih =>
    rw [List.mapM_cons, Option.bind_eq_bind, Option.bind_eq_some_iff]
    constructor
    · rintro ⟨y, rfl, h⟩
      obtain ⟨zs, hzs, rfl⟩ := Option.map_eq_some_iff.mp (Option.map_eq_bind.trans h)
      rw [List.map_cons, ← ih.mp hzs]
    · intro h
      cases ys with
      | nil => cases h
      | cons y ys =>
        obtain ⟨rfl, hxs⟩ := List.cons.inj h
        exact ⟨y, rfl, by rw [ih.mpr hxs]; rfl⟩

/-- Bytes that are well-formed are read alike, strictly or not. -/
theorem decodeUtf8?_eq_some {bs : List UInt8} {s : List Char} :
    decodeUtf8? bs = some s ↔ decodePieces bs = s.map some :=
  mapM_id_eq_some

theorem decodeUtf8?_encodeUtf8 (s : List Char) : decodeUtf8? (encodeUtf8 s) = some s :=
  decodeUtf8?_eq_some.mpr (decodePieces_encodeUtf8 s)

theorem decodeUtf8Lossy_of_eq_some {bs : List UInt8} {s : List Char} (h : decodeUtf8? bs = some s) :
    decodeUtf8Lossy bs = s := by
  rw [decodeUtf8Lossy, decodeUtf8?_eq_some.mp h, List.map_map]
  exact List.map_id s

/-- Bytes that are not well-formed leave a mark. -/
theorem replacement_mem_decodeUtf8Lossy {bs : List UInt8} (h : decodeUtf8? bs = none) :
    '\uFFFD' ∈ decodeUtf8Lossy bs := by
  refine Decidable.byContradiction fun hno => ?_
  have hpieces : decodePieces bs = (decodeUtf8Lossy bs).map some := by
    rw [decodeUtf8Lossy, List.map_map]
    refine (List.map_id _).symm.trans (List.map_congr_left fun p hp => ?_)
    cases p with
    | none => exact absurd (List.mem_map.mpr ⟨none, hp, rfl⟩) hno
    | some c => rfl
  rw [decodeUtf8?_eq_some.mpr hpieces] at h
  cases h

/-- A one-byte encoding has no mark for ill-formed bytes. -/
theorem replacement_not_mem_decodeLatin1 (bs : List UInt8) : '\uFFFD' ∉ decodeLatin1 bs := by
  intro h
  obtain ⟨b, -, hb⟩ := List.mem_map.mp h
  have hvalid : b.toNat.isValidChar := .inl (Nat.lt_trans b.toNat_lt (by decide))
  rw [Char.ofNat, dif_pos hvalid] at hb
  have hcode : b.toNat = 0xFFFD := congrArg Char.toNat hb
  exact absurd hcode (Nat.ne_of_lt (Nat.lt_trans b.toNat_lt (by decide)))

theorem length_decodePieces_le (bs : List UInt8) : (decodePieces bs).length ≤ bs.length := by
  induction hn : bs.length using Nat.strongRecOn generalizing bs with
  | ind n ih =>
    cases bs with
    | nil => simp [decodePieces]
    | cons b bs =>
      have hrest := length_takeChar b bs
      rw [List.length_cons] at hn
      have hle := ih _ (by omega) (takeChar b bs).2 rfl
      rw [decodePieces, List.length_cons]
      omega

/-- A text has no more characters than bytes. -/
theorem length_decodeUtf8Lossy_le (bs : List UInt8) : (decodeUtf8Lossy bs).length ≤ bs.length := by
  rw [decodeUtf8Lossy, List.length_map]
  exact length_decodePieces_le bs

end ScriptService.Text

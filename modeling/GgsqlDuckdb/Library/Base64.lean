import Mathlib.Data.List.Basic
import Mathlib.Tactic.Basic

/-!
# Base64

The encoding of RFC 4648 with its standard alphabet and padding, and the decoder of the web
platform, which strips white space, takes padding or its absence, and drops the bits that are
left over.

## Main results

- `decode_encode`: every byte string comes back, whatever its length.
- `mem_encode`: an encoded text consists of symbols and padding.
-/

namespace Library.Base64

/-! ## §1 The encoding -/

/-- The symbol of a six bit number. -/
def symbol (n : ℕ) : UInt8 :=
  if n < 26 then UInt8.ofNat (0x41 + n)
  else if n < 52 then UInt8.ofNat (0x61 + (n - 26))
  else if n < 62 then UInt8.ofNat (0x30 + (n - 52))
  else if n = 62 then 0x2b
  else 0x2f

def pad : UInt8 := 0x3d

/-- The six bit numbers of a byte string, three bytes at a time; the last is filled up with
zeros. -/
def sextets : List UInt8 → List ℕ
  | [] => []
  | [a] => [a.toNat / 4, a.toNat % 4 * 16]
  | [a, b] => [a.toNat / 4, a.toNat % 4 * 16 + b.toNat / 16, b.toNat % 16 * 4]
  | a :: b :: c :: rest =>
    a.toNat / 4 :: (a.toNat % 4 * 16 + b.toNat / 16) :: (b.toNat % 16 * 4 + c.toNat / 64) ::
      (c.toNat % 64) :: sextets rest

/-- What fills the last group of symbols up to four. -/
def padding : List UInt8 → List UInt8
  | [] => []
  | [_] => [pad, pad]
  | [_, _] => [pad]
  | _ :: _ :: _ :: rest => padding rest

def encode (bytes : List UInt8) : List UInt8 := (sextets bytes).map symbol ++ padding bytes

/-! ## §2 The decoder -/

/-- The number of a symbol. -/
def value (c : UInt8) : Option ℕ :=
  if 0x41 ≤ c ∧ c ≤ 0x5a then some (c.toNat - 0x41)
  else if 0x61 ≤ c ∧ c ≤ 0x7a then some (c.toNat - 0x61 + 26)
  else if 0x30 ≤ c ∧ c ≤ 0x39 then some (c.toNat - 0x30 + 52)
  else if c = 0x2b then some 62
  else if c = 0x2f then some 63
  else none

def isSpace (c : UInt8) : Bool := c == 0x09 || c == 0x0a || c == 0x0c || c == 0x0d || c == 0x20

/-- One or two characters of padding are removed from a text of whole groups. -/
def unpad (text : List UInt8) : List UInt8 :=
  if text.length % 4 = 0 then
    match text.reverse with
    | [] => []
    | c :: rest =>
      if c ≠ pad then text
      else
        match rest with
        | [] => []
        | c' :: rest' => if c' ≠ pad then rest.reverse else rest'.reverse
  else text

/-- The bytes of six bit numbers; the bits behind the last whole byte are dropped. -/
def octets : List ℕ → List UInt8
  | a :: b :: c :: d :: rest =>
    UInt8.ofNat (a * 4 + b / 16) :: UInt8.ofNat (b % 16 * 16 + c / 4) ::
      UInt8.ofNat (c % 4 * 64 + d) :: octets rest
  | [a, b, c] => [UInt8.ofNat (a * 4 + b / 16), UInt8.ofNat (b % 16 * 16 + c / 4)]
  | [a, b] => [UInt8.ofNat (a * 4 + b / 16)]
  | _ => []

/-- `none` for a text that is not base64. -/
def decode (text : List UInt8) : Option (List UInt8) :=
  let data := unpad (text.filter fun c => !isSpace c)
  if data.length % 4 = 1 then none else (data.mapM value).map octets

/-! ## §3 The alphabet -/

theorem value_symbol {n : ℕ} (h : n < 64) : value (symbol n) = some n := by
  revert n
  decide

theorem symbol_ne_pad {n : ℕ} (h : n < 64) : symbol n ≠ pad := by
  revert n
  decide

theorem sextets_lt (bytes : List UInt8) : ∀ n ∈ sextets bytes, n < 64 := by
  fun_induction sextets bytes with
  | case1 => simp
  | case2 a =>
    have ha := a.toNat_lt
    simp only [List.mem_cons, List.not_mem_nil, or_false]
    omega
  | case3 a b =>
    have ha := a.toNat_lt
    have hb := b.toNat_lt
    simp only [List.mem_cons, List.not_mem_nil, or_false]
    omega
  | case4 a b c rest ih =>
    have ha := a.toNat_lt
    have hb := b.toNat_lt
    have hc := c.toNat_lt
    intro n hn
    simp only [List.mem_cons] at hn
    rcases hn with rfl | rfl | rfl | rfl | hn
    · omega
    · omega
    · omega
    · omega
    · exact ih n hn

theorem padding_cases (bytes : List UInt8) :
    padding bytes = [] ∨ padding bytes = [pad] ∨ padding bytes = [pad, pad] := by
  fun_induction padding bytes with
  | case1 => exact Or.inl rfl
  | case2 => exact Or.inr (Or.inr rfl)
  | case3 => exact Or.inr (Or.inl rfl)
  | case4 a b c rest ih => exact ih

/-- An encoded text consists of whole groups. -/
theorem encode_length (bytes : List UInt8) :
    (encode bytes).length = 4 * ((bytes.length + 2) / 3) := by
  unfold encode
  rw [List.length_append, List.length_map]
  fun_induction sextets bytes with
  | case1 => simp [padding]
  | case2 a => simp [padding]
  | case3 a b => simp [padding]
  | case4 a b c rest ih =>
    rw [padding]
    simp only [List.length_cons]
    omega

/-- **An encoded text consists of symbols and padding.** -/
theorem mem_encode {bytes : List UInt8} {c : UInt8} (h : c ∈ encode bytes) :
    c = pad ∨ ∃ n < 64, c = symbol n := by
  rcases List.mem_append.mp h with hbody | hpad
  · obtain ⟨n, hn, rfl⟩ := List.mem_map.mp hbody
    exact Or.inr ⟨n, sextets_lt bytes n hn, rfl⟩
  · left
    rcases padding_cases bytes with heq | heq | heq
    · rw [heq] at hpad; cases hpad
    · rw [heq] at hpad; simpa using hpad
    · rw [heq] at hpad; simpa using hpad

/-- What holds of all symbols and of the padding holds of an encoded text. -/
theorem forall_mem_encode {p : UInt8 → Prop} (hsymbol : ∀ n < 64, p (symbol n)) (hpad : p pad)
    (bytes : List UInt8) : ∀ c ∈ encode bytes, p c := by
  intro c hc
  rcases mem_encode hc with rfl | ⟨n, hn, rfl⟩
  · exact hpad
  · exact hsymbol n hn

/-! ## §4 The round trip -/

theorem unpad_append {body tail : List UInt8} (hfree : pad ∉ body)
    (htail : tail = [] ∨ tail = [pad] ∨ tail = [pad, pad])
    (hlength : (body ++ tail).length % 4 = 0) : unpad (body ++ tail) = body := by
  have hlast : ∀ c rest, body.reverse = c :: rest → c ≠ pad := by
    intro c rest hrev heq
    have hmem : c ∈ body := List.mem_reverse.mp (hrev ▸ List.mem_cons_self)
    exact hfree (heq ▸ hmem)
  unfold unpad
  rw [if_pos hlength]
  rcases htail with rfl | rfl | rfl
  · rw [List.append_nil]
    cases hrev : body.reverse with
    | nil => exact (List.reverse_eq_nil_iff.mp hrev).symm
    | cons c rest => simp [hlast c rest hrev]
  · rw [List.reverse_append]
    cases hrev : body.reverse with
    | nil => simp [List.reverse_eq_nil_iff.mp hrev]
    | cons c rest =>
      have hbody : body = rest.reverse ++ [c] := by
        rw [← List.reverse_reverse body, hrev, List.reverse_cons]
      simp [hlast c rest hrev, hbody]
  · simp [List.reverse_append]

/-- The bytes of the six bit numbers of a byte string. -/
theorem octets_sextets (bytes : List UInt8) : octets (sextets bytes) = bytes := by
  have hone : ∀ (a : UInt8) (n : ℕ), n = a.toNat → UInt8.ofNat n = a := by
    intro a n h
    rw [h, UInt8.ofNat_toNat]
  fun_induction sextets bytes with
  | case1 => rfl
  | case2 a =>
    have ha := a.toNat_lt
    rw [octets, hone a _ (by omega)]
  | case3 a b =>
    have ha := a.toNat_lt
    have hb := b.toNat_lt
    rw [octets, hone a _ (by omega), hone b _ (by omega)]
  | case4 a b c rest ih =>
    have ha := a.toNat_lt
    have hb := b.toNat_lt
    have hc := c.toNat_lt
    rw [octets, hone a _ (by omega), hone b _ (by omega), hone c _ (by omega), ih]

theorem mapM_value_symbol {ns : List ℕ} (h : ∀ n ∈ ns, n < 64) :
    (ns.map symbol).mapM value = some ns := by
  induction ns with
  | nil => rfl
  | cons n ns ih =>
    have hn := value_symbol (h n List.mem_cons_self)
    have hns := ih fun m hm => h m (List.mem_cons_of_mem n hm)
    rw [List.map_cons, List.mapM_cons, hn, hns]
    rfl

/-- Six bit numbers never leave a single symbol over. -/
theorem sextets_length (bytes : List UInt8) : (sextets bytes).length % 4 ≠ 1 := by
  fun_induction sextets bytes with
  | case1 => simp
  | case2 a => simp
  | case3 a b => simp
  | case4 a b c rest ih =>
    simp only [List.length_cons]
    omega

/-- **Every byte string comes back.** -/
theorem decode_encode (bytes : List UInt8) : decode (encode bytes) = some bytes := by
  have hspace : (encode bytes).filter (fun c => !isSpace c) = encode bytes := by
    rw [List.filter_eq_self]
    exact forall_mem_encode (by decide) (by decide) bytes
  have hfree : pad ∉ (sextets bytes).map symbol := by
    intro hmem
    obtain ⟨n, hn, heq⟩ := List.mem_map.mp hmem
    exact symbol_ne_pad (sextets_lt bytes n hn) heq
  have hlength : ((sextets bytes).map symbol ++ padding bytes).length % 4 = 0 := by
    have h := encode_length bytes
    unfold encode at h
    omega
  have hdata : unpad (encode bytes) = (sextets bytes).map symbol :=
    unpad_append hfree (padding_cases bytes) hlength
  unfold decode
  rw [hspace, hdata]
  dsimp only
  rw [List.length_map, if_neg (sextets_length bytes), mapM_value_symbol (sextets_lt bytes),
    Option.map_some, octets_sextets]

example : encode [0x66, 0x6f, 0x6f, 0x62] = [0x5a, 0x6d, 0x39, 0x76, 0x59, 0x67, 0x3d, 0x3d] := by
  decide

end Library.Base64

import RunJournal.Proofs.LogText
/-!
# JSON text as bytes

What the writer puts down, byte by byte. Inside a string literal a character is its own UTF-8
bytes (`escapedBytes_plain`) unless it is a quote, a backslash or a control character, which are
written as a backslash and a letter, or as `\u00` and two hex digits (`escapedBytes_hex`). A natural
number is its decimal digits (`digitBytes`), whose value read left to right is the number.

Compact and pretty text are two instances of one layout, `spell`: the tokens of the value, with
blanks only before an item, a member or a closing bracket (`lead`) and after a colon (`gap`)
(`compact_bytes`, `prettyAt_bytes`). Readers are then proved once, against `spell`.
-/

namespace RunJournal

/-! ## Characters as bytes -/

theorem toUTF8_toList_eq_flatMap (s : String) :
    s.toUTF8.toList = s.toList.flatMap String.utf8EncodeChar := by
  have h := String.toByteArray_ofList (l := s.toList)
  rw [String.ofList_toList] at h
  simp [ByteArray.toList_eq_data, h, List.utf8Encode]

theorem singleton_toUTF8_toList (c : Char) :
    (String.singleton c).toUTF8.toList = String.utf8EncodeChar c := by
  simp [ByteArray.toList_eq_data, String.toByteArray_singleton, List.utf8Encode]

theorem Char.toNat_lt_limit (c : Char) : c.toNat < 0x110000 := by
  have h := c.valid
  simp only [UInt32.isValidChar, Nat.isValidChar] at h
  show c.val.toNat < 0x110000
  omega

theorem utf8EncodeChar_ascii {c : Char} (h : c.toNat ≤ 0x7f) :
    String.utf8EncodeChar c = [UInt8.ofNat c.toNat] := by
  unfold String.utf8EncodeChar
  dsimp only
  rw [if_pos (show c.val.toNat ≤ 127 from h)]
  rfl

theorem utf8EncodeChar_high {c : Char} (h : 0x7f < c.toNat) :
    ∀ b ∈ String.utf8EncodeChar c, 0x80 ≤ b.toNat := by
  intro b hb
  have hv := Char.toNat_lt_limit c
  unfold String.utf8EncodeChar at hb
  dsimp only at hb
  simp only [Char.toNat] at h hv
  split at hb
  · omega
  split at hb
  · simp only [List.mem_cons, List.not_mem_nil, or_false] at hb
    rcases hb with rfl | rfl <;> simp [UInt8.toNat_ofNat'] <;> omega
  split at hb
  · simp only [List.mem_cons, List.not_mem_nil, or_false] at hb
    rcases hb with rfl | rfl | rfl <;> simp [UInt8.toNat_ofNat'] <;> omega
  · simp only [List.mem_cons, List.not_mem_nil, or_false] at hb
    rcases hb with rfl | rfl | rfl | rfl <;> simp [UInt8.toNat_ofNat'] <;> omega

theorem toNat_ofNat_ascii {c : Char} (h : c.toNat ≤ 0x7f) : (UInt8.ofNat c.toNat).toNat = c.toNat := by
  simp only [UInt8.toNat_ofNat']
  omega

theorem ofList_toUTF8_ascii {cs : List Char} (h : ∀ c ∈ cs, c.toNat ≤ 0x7f) :
    (String.ofList cs).toUTF8.toList = cs.map fun c => UInt8.ofNat c.toNat := by
  rw [toUTF8_toList_eq_flatMap, String.toList_ofList]
  induction cs with
  | nil => rfl
  | cons c cs ih =>
    rw [List.flatMap_cons, utf8EncodeChar_ascii (h c (by simp)),
      ih fun c hc => h c (List.mem_cons_of_mem _ hc)]
    rfl

namespace Json

/-! ## String literals -/

/-- A byte that stands for itself inside a string literal. -/
def PlainByte (b : UInt8) : Prop := 32 ≤ b.toNat ∧ b ≠ 34 ∧ b ≠ 92

/-- The bytes of a character inside a string literal. -/
def escapedBytes (c : Char) : List UInt8 := (escapeChar c).toUTF8.toList

def hexByte (n : Nat) : UInt8 := UInt8.ofNat (hexDigit n).toNat

theorem hexDigit_ascii : ∀ x : Fin 16, (hexDigit x.val).toNat ≤ 0x7f := by decide

theorem hexByte_printable : ∀ x : Fin 16, 32 ≤ (hexByte x.val).toNat := by decide

theorem foldl_escape_bytes (cs : List Char) (init : String) :
    (cs.foldl (fun acc c => acc ++ escapeChar c) init).toUTF8.toList =
      init.toUTF8.toList ++ cs.flatMap escapedBytes := by
  induction cs generalizing init with
  | nil => simp
  | cons c cs ih =>
    rw [List.foldl_cons, ih, toUTF8_toList_append, List.flatMap_cons, List.append_assoc]
    rfl

theorem quote_bytes (s : String) :
    (quote s).toUTF8.toList = 34 :: s.toList.flatMap escapedBytes ++ [34] := by
  have hq : "\"".toUTF8.toList = [34] := by rw [ByteArray.toList_eq_data]; rfl
  have hnil : "".toUTF8.toList = [] := by rw [ByteArray.toList_eq_data]; rfl
  rw [quote, String.foldl_eq_foldl_toList, toUTF8_toList_append, toUTF8_toList_append,
    foldl_escape_bytes, hq, hnil]
  rfl

theorem ascii_eq_of_toNat {c : Char} {n : Nat} (h : c.toNat = n) : c = Char.ofNat n := by
  rw [← Char.ofNat_toNat c, h]

/-- A character that needs no escape is written as its own bytes, none of which ends the literal
or starts an escape. -/
theorem escapedBytes_plain {c : Char} (hquote : c ≠ '"') (hback : c ≠ '\\')
    (hctl : 0x20 ≤ c.toNat) :
    escapedBytes c = String.utf8EncodeChar c ∧ ∀ b ∈ String.utf8EncodeChar c, PlainByte b := by
  have hnl : c ≠ '\n' := fun h => by subst h; simp at hctl
  have hcr : c ≠ '\r' := fun h => by subst h; simp at hctl
  have htab : c ≠ '\t' := fun h => by subst h; simp at hctl
  have hesc : escapeChar c = String.singleton c := by
    simp [escapeChar, hquote, hback, hnl, hcr, htab, show c.toNat ≠ 8 by omega,
      show c.toNat ≠ 12 by omega, show ¬ c.toNat < 32 by omega]
  refine ⟨by rw [escapedBytes, hesc, singleton_toUTF8_toList], ?_⟩
  intro b hb
  by_cases hascii : c.toNat ≤ 0x7f
  · rw [utf8EncodeChar_ascii hascii, List.mem_singleton] at hb
    subst hb
    have hval := toNat_ofNat_ascii hascii
    refine ⟨by omega, fun h => hquote ?_, fun h => hback ?_⟩
    · exact ascii_eq_of_toNat (c := c) (n := 34) (by rw [← hval, h]; rfl)
    · exact ascii_eq_of_toNat (c := c) (n := 92) (by rw [← hval, h]; rfl)
  · have := utf8EncodeChar_high (by omega) b hb
    exact ⟨by omega, fun h => by subst h; simp at this, fun h => by subst h; simp at this⟩

/-- A control character without a short escape is written `\u00` and its two hex digits. -/
theorem escapedBytes_hex {c : Char} (hctl : c.toNat < 0x20) (hnl : c ≠ '\n') (hcr : c ≠ '\r')
    (htab : c ≠ '\t') (h8 : c.toNat ≠ 8) (h12 : c.toNat ≠ 12) :
    escapedBytes c = [92, 117, 48, 48, hexByte (c.toNat / 16), hexByte (c.toNat % 16)] := by
  have hquote : c ≠ '"' := fun h => by subst h; simp at hctl
  have hback : c ≠ '\\' := fun h => by subst h; simp at hctl
  have hhi := hexDigit_ascii ⟨c.toNat / 16, by omega⟩
  have hlo := hexDigit_ascii ⟨c.toNat % 16, by omega⟩
  simp only [escapedBytes, escapeChar, hquote, hback, hnl, hcr, htab, h8, h12, hctl, if_false,
    if_true]
  rw [ofList_toUTF8_ascii]
  · rfl
  · intro x hx
    simp only [List.mem_cons, List.not_mem_nil, or_false] at hx
    rcases hx with rfl | rfl | rfl | rfl | rfl | rfl
    all_goals first | decide | assumption

theorem short_escape_bytes {c : Char} (text : String) {e : UInt8} (h : escapeChar c = text)
    (htext : text.toUTF8.toList = [92, e]) : escapedBytes c = [92, e] := by
  rw [escapedBytes, h, htext]

theorem escapedBytes_quote : escapedBytes '"' = [92, 34] :=
  short_escape_bytes ("\\\"") (by simp [escapeChar]) (by rw [ByteArray.toList_eq_data]; rfl)

theorem escapedBytes_backslash : escapedBytes '\\' = [92, 92] :=
  short_escape_bytes ("\\\\") (by simp [escapeChar]) (by rw [ByteArray.toList_eq_data]; rfl)

theorem escapedBytes_newline : escapedBytes '\n' = [92, 110] :=
  short_escape_bytes ("\\n") (by simp [escapeChar]) (by rw [ByteArray.toList_eq_data]; rfl)

theorem escapedBytes_return : escapedBytes '\r' = [92, 114] :=
  short_escape_bytes ("\\r") (by simp [escapeChar]) (by rw [ByteArray.toList_eq_data]; rfl)

theorem escapedBytes_tab : escapedBytes '\t' = [92, 116] :=
  short_escape_bytes ("\\t") (by simp [escapeChar]) (by rw [ByteArray.toList_eq_data]; rfl)

theorem escapedBytes_backspace : escapedBytes (Char.ofNat 8) = [92, 98] :=
  short_escape_bytes ("\\b") (by simp [escapeChar]) (by rw [ByteArray.toList_eq_data]; rfl)

theorem escapedBytes_formfeed : escapedBytes (Char.ofNat 12) = [92, 102] :=
  short_escape_bytes ("\\f") (by simp [escapeChar]) (by rw [ByteArray.toList_eq_data]; rfl)

/-- Every character is written with bytes from the space up: control characters are escaped. -/
theorem escapedBytes_printable (c : Char) : ∀ b ∈ escapedBytes c, 32 ≤ b.toNat := by
  by_cases hq : c = '"'
  · rw [hq, escapedBytes_quote]; decide +kernel
  by_cases hb : c = '\\'
  · rw [hb, escapedBytes_backslash]; decide +kernel
  by_cases hctl : 0x20 ≤ c.toNat
  · obtain ⟨heq, hplain⟩ := escapedBytes_plain hq hb hctl
    rw [heq]
    exact fun b hb => (hplain b hb).1
  by_cases hnl : c = '\n'
  · rw [hnl, escapedBytes_newline]; decide +kernel
  by_cases hcr : c = '\r'
  · rw [hcr, escapedBytes_return]; decide +kernel
  by_cases htab : c = '\t'
  · rw [htab, escapedBytes_tab]; decide +kernel
  by_cases h8 : c.toNat = 8
  · rw [ascii_eq_of_toNat h8, escapedBytes_backspace]; decide +kernel
  by_cases h12 : c.toNat = 12
  · rw [ascii_eq_of_toNat h12, escapedBytes_formfeed]; decide +kernel
  rw [escapedBytes_hex (by omega) hnl hcr htab h8 h12]
  have hhi := hexByte_printable ⟨c.toNat / 16, by omega⟩
  have hlo := hexByte_printable ⟨c.toNat % 16, by omega⟩
  simp only [List.mem_cons, List.not_mem_nil, or_false]
  rintro b (rfl | rfl | rfl | rfl | rfl | rfl)
  all_goals first | decide | assumption

/-! ## Natural numbers -/

def digitBytes (n : Nat) : List UInt8 := (Nat.toDigits 10 n).map fun c => UInt8.ofNat c.toNat

/-- The value of decimal digit bytes read left to right after `init`. -/
def digitsValue (init : Nat) (bs : List UInt8) : Nat := bs.foldl (fun n b => n * 10 + (b.toNat - 48)) init

def DigitByte (b : UInt8) : Prop := 48 ≤ b.toNat ∧ b.toNat ≤ 57

theorem toDigits_ascii (n : Nat) : ∀ c ∈ Nat.toDigits 10 n, c.toNat ≤ 0x7f := by
  intro c hc
  have hdigit := Nat.isDigit_of_mem_toDigits (by decide) (by decide) hc
  simp only [Char.isDigit, Bool.and_eq_true, decide_eq_true_eq] at hdigit
  show c.val.toNat ≤ 127
  have : c.val ≤ '9'.val := hdigit.2
  simp only [UInt32.le_iff_toNat_le] at this
  exact Nat.le_trans this (by decide)

theorem toString_bytes (n : Nat) : (toString n).toUTF8.toList = digitBytes n := by
  rw [Nat.toString_eq_ofList_toDigits, ofList_toUTF8_ascii (toDigits_ascii n)]
  rfl

theorem digitBytes_eq (n : Nat) :
    digitBytes n = if n < 10 then [UInt8.ofNat (48 + n)] else digitBytes (n / 10) ++ [UInt8.ofNat (48 + n % 10)] := by
  unfold digitBytes
  rw [Nat.toDigits_eq_if (by decide)]
  split
  · simp [Nat.toNat_digitChar_of_lt_ten (by assumption)]
  · simp [Nat.toNat_digitChar_of_lt_ten (Nat.mod_lt n (by decide))]

theorem digitBytes_digits (n : Nat) : ∀ b ∈ digitBytes n, DigitByte b := by
  induction n using Nat.strongRecOn with
  | ind n ih =>
    rw [digitBytes_eq]
    split
    · simp only [List.mem_singleton]
      rintro b rfl
      simp only [DigitByte, UInt8.toNat_ofNat']
      omega
    · simp only [List.mem_append, List.mem_singleton]
      rintro b (hb | rfl)
      · exact ih (n / 10) (by omega) b hb
      · simp only [DigitByte, UInt8.toNat_ofNat']
        omega

theorem digitsValue_append (init : Nat) (bs bs' : List UInt8) :
    digitsValue init (bs ++ bs') = digitsValue (digitsValue init bs) bs' := by
  simp [digitsValue, List.foldl_append]

theorem digitsValue_digitBytes (n : Nat) : digitsValue 0 (digitBytes n) = n := by
  induction n using Nat.strongRecOn with
  | ind n ih =>
    rw [digitBytes_eq]
    split
    · simp [digitsValue, UInt8.toNat_ofNat']
      omega
    · rw [digitsValue_append, ih (n / 10) (by omega)]
      simp [digitsValue, UInt8.toNat_ofNat']
      omega

theorem le_digitsValue (init : Nat) (bs : List UInt8) : init ≤ digitsValue init bs := by
  induction bs generalizing init with
  | nil => exact Nat.le_refl init
  | cons b bs ih =>
    have := ih (init * 10 + (b.toNat - 48))
    simp only [digitsValue, List.foldl_cons] at this ⊢
    omega

/-- The digits of `n` are a first digit and the rest, the first being `0` only for zero. -/
theorem digitBytes_cons (n : Nat) :
    ∃ b bs, digitBytes n = b :: bs ∧ digitsValue (b.toNat - 48) bs = n ∧ (b = 48 → bs = []) := by
  induction n using Nat.strongRecOn with
  | ind n ih =>
    rw [digitBytes_eq]
    split
    · refine ⟨_, [], rfl, ?_, fun h => rfl⟩
      simp [digitsValue, UInt8.toNat_ofNat']
      omega
    · obtain ⟨b, bs, hbs, hval, hzero⟩ := ih (n / 10) (by omega)
      refine ⟨b, bs ++ [UInt8.ofNat (48 + n % 10)], by rw [hbs]; rfl, ?_, fun h => ?_⟩
      · rw [digitsValue_append, hval]
        simp [digitsValue, UInt8.toNat_ofNat']
        omega
      · have hval' := hval
        rw [hzero h] at hval'
        simp [digitsValue, h] at hval'
        omega

/-! ## Layout -/

/-- The blanks before an item, a member or a closing bracket at nesting `depth`: none when
compact, a line break and the indent when pretty. -/
def lead (pretty : Bool) (depth : Nat) : List UInt8 :=
  if pretty then 10 :: List.replicate (2 * depth) 32 else []

def gap (pretty : Bool) : List UInt8 := if pretty then [32] else []

mutual
/-- The text of a value whose first line stands at nesting `depth`. -/
def spell (pretty : Bool) (depth : Nat) : Json → List UInt8
  | .null => (compact .null).toUTF8.toList
  | .bool b => (compact (.bool b)).toUTF8.toList
  | .num n => n.text.toUTF8.toList
  | .str s => (quote s).toUTF8.toList
  | .arr [] => [91, 93]
  | .obj [] => [123, 125]
  | .arr (v :: vs) => 91 :: spellItems pretty (depth + 1) (v :: vs) ++ lead pretty depth ++ [93]
  | .obj (m :: ms) => 123 :: spellMembers pretty (depth + 1) (m :: ms) ++ lead pretty depth ++ [125]

/-- Items, each after its `lead`, separated by commas. -/
def spellItems (pretty : Bool) (depth : Nat) : List Json → List UInt8
  | [] => []
  | [v] => lead pretty depth ++ spell pretty depth v
  | v :: w :: ws => lead pretty depth ++ spell pretty depth v ++ 44 :: spellItems pretty depth (w :: ws)

/-- Members, each after its `lead`, separated by commas. -/
def spellMembers (pretty : Bool) (depth : Nat) : List (String × Json) → List UInt8
  | [] => []
  | [(k, v)] => lead pretty depth ++ (quote k).toUTF8.toList ++ 58 :: gap pretty ++ spell pretty depth v
  | (k, v) :: m :: ms =>
    lead pretty depth ++ (quote k).toUTF8.toList ++ 58 :: gap pretty ++ spell pretty depth v ++
      44 :: spellMembers pretty depth (m :: ms)
end

theorem empty_bytes : "".toUTF8.toList = [] := by rw [ByteArray.toList_eq_data]; rfl
theorem open_bracket_bytes : "[".toUTF8.toList = [91] := by rw [ByteArray.toList_eq_data]; rfl
theorem close_bracket_bytes : "]".toUTF8.toList = [93] := by rw [ByteArray.toList_eq_data]; rfl
theorem open_brace_bytes : "\x7b".toUTF8.toList = [123] := by rw [ByteArray.toList_eq_data]; rfl
theorem close_brace_bytes : "\x7d".toUTF8.toList = [125] := by rw [ByteArray.toList_eq_data]; rfl
theorem comma_bytes : ",".toUTF8.toList = [44] := by rw [ByteArray.toList_eq_data]; rfl
theorem colon_bytes : ":".toUTF8.toList = [58] := by rw [ByteArray.toList_eq_data]; rfl

mutual
theorem compact_bytes : ∀ (d : Nat) (v : Json), (compact v).toUTF8.toList = spell false d v
  | _, .null => by rw [spell]
  | _, .bool b => by rw [spell]
  | _, .num n => by rw [spell, compact]
  | _, .str s => by rw [spell, compact]
  | _, .arr [] => by
    rw [spell, compact, compactItems, toUTF8_toList_append, toUTF8_toList_append, open_bracket_bytes,
      close_bracket_bytes, empty_bytes]
    rfl
  | _, .obj [] => by
    rw [spell, compact, compactMembers, toUTF8_toList_append, toUTF8_toList_append, open_brace_bytes,
      close_brace_bytes, empty_bytes]
    rfl
  | d, .arr (v :: vs) => by
    rw [spell, compact, toUTF8_toList_append, toUTF8_toList_append, compactItems_bytes (d + 1) (v :: vs),
      open_bracket_bytes, close_bracket_bytes]
    simp [lead]
  | d, .obj (m :: ms) => by
    rw [spell, compact, toUTF8_toList_append, toUTF8_toList_append,
      compactMembers_bytes (d + 1) (m :: ms), open_brace_bytes, close_brace_bytes]
    simp [lead]

theorem compactItems_bytes :
    ∀ (d : Nat) (vs : List Json), (compactItems vs).toUTF8.toList = spellItems false d vs
  | _, [] => by rw [compactItems, spellItems, empty_bytes]
  | d, [v] => by simp only [compactItems, spellItems, compact_bytes d v, lead]; rfl
  | d, v :: w :: ws => by
    simp only [compactItems, spellItems, toUTF8_toList_append, compact_bytes d v, comma_bytes,
      compactItems_bytes d (w :: ws), lead]
    simp

theorem compactMembers_bytes :
    ∀ (d : Nat) (ms : List (String × Json)),
      (compactMembers ms).toUTF8.toList = spellMembers false d ms
  | _, [] => by rw [compactMembers, spellMembers, empty_bytes]
  | d, [(k, v)] => by
    simp only [compactMembers, spellMembers, toUTF8_toList_append, compact_bytes d v, colon_bytes,
      lead, gap]
    simp
  | d, (k, v) :: m :: ms => by
    simp only [compactMembers, spellMembers, toUTF8_toList_append, compact_bytes d v, colon_bytes,
      comma_bytes, compactMembers_bytes d (m :: ms), lead, gap]
    simp
end

theorem indent_bytes (d : Nat) : (indent d).toUTF8.toList = List.replicate (2 * d) 32 := by
  rw [indent, ofList_toUTF8_ascii (fun c hc => by rw [(List.mem_replicate.mp hc).2]; decide),
    List.map_replicate]
  rfl

theorem newline_indent_bytes (d : Nat) : ("\n" ++ indent d).toUTF8.toList = lead true d := by
  rw [toUTF8_toList_append, toUTF8_toList_newline, indent_bytes]
  rfl

theorem open_bracket_newline_bytes : "[\n".toUTF8.toList = [91, 10] := by
  rw [ByteArray.toList_eq_data]; rfl
theorem open_brace_newline_bytes : "\x7b\n".toUTF8.toList = [123, 10] := by
  rw [ByteArray.toList_eq_data]; rfl
theorem comma_newline_bytes : ",\n".toUTF8.toList = [44, 10] := by
  rw [ByteArray.toList_eq_data]; rfl
theorem colon_space_bytes : ": ".toUTF8.toList = [58, 32] := by
  rw [ByteArray.toList_eq_data]; rfl

mutual
theorem prettyAt_bytes : ∀ (d : Nat) (v : Json), (prettyAt d v).toUTF8.toList = spell true d v
  | d, .null => by simp [spell, prettyAt]
  | d, .bool b => by simp [spell, prettyAt]
  | d, .num n => by simp [spell, prettyAt, compact]
  | d, .str s => by simp [spell, prettyAt, compact]
  | d, .arr [] => by rw [spell, prettyAt, ByteArray.toList_eq_data]; rfl
  | d, .obj [] => by rw [spell, prettyAt, ByteArray.toList_eq_data]; rfl
  | d, .arr (v :: vs) => by
    have hitems := prettyItems_bytes (d + 1) (v :: vs) (List.cons_ne_nil v vs)
    rw [spell, prettyAt, String.append_assoc, String.append_assoc, toUTF8_toList_append,
      toUTF8_toList_append, ← String.append_assoc, toUTF8_toList_append, newline_indent_bytes,
      open_bracket_newline_bytes, close_bracket_bytes, ← hitems]
    · simp
    · exact List.cons_ne_nil v vs
  | d, .obj (m :: ms) => by
    have hmembers := prettyMembers_bytes (d + 1) (m :: ms) (List.cons_ne_nil m ms)
    rw [spell, prettyAt, String.append_assoc, String.append_assoc, toUTF8_toList_append,
      toUTF8_toList_append, ← String.append_assoc, toUTF8_toList_append, newline_indent_bytes,
      open_brace_newline_bytes, close_brace_bytes, ← hmembers]
    · simp
    · exact List.cons_ne_nil m ms

theorem prettyItems_bytes : ∀ (d : Nat) (vs : List Json), vs ≠ [] →
    10 :: (prettyItems d vs).toUTF8.toList = spellItems true d vs
  | d, [v], _ => by
    simp only [prettyItems, spellItems, toUTF8_toList_append, indent_bytes, prettyAt_bytes d v, lead]
    simp
  | d, v :: w :: ws, _ => by
    have hrest := prettyItems_bytes d (w :: ws) (List.cons_ne_nil w ws)
    simp only [prettyItems, spellItems, toUTF8_toList_append, indent_bytes, prettyAt_bytes d v,
      comma_newline_bytes, lead] at hrest ⊢
    rw [← hrest]
    simp

theorem prettyMembers_bytes : ∀ (d : Nat) (ms : List (String × Json)), ms ≠ [] →
    10 :: (prettyMembers d ms).toUTF8.toList = spellMembers true d ms
  | d, [(k, v)], _ => by
    simp only [prettyMembers, spellMembers, toUTF8_toList_append, indent_bytes, prettyAt_bytes d v,
      colon_space_bytes, lead, gap]
    simp
  | d, (k, v) :: m :: ms, _ => by
    have hrest := prettyMembers_bytes d (m :: ms) (List.cons_ne_nil m ms)
    simp only [prettyMembers, spellMembers, toUTF8_toList_append, indent_bytes, prettyAt_bytes d v,
      colon_space_bytes, comma_newline_bytes, lead, gap] at hrest ⊢
    rw [← hrest]
    simp
end

/-! ## Blanks and what may follow a value -/

def Blank (b : UInt8) : Prop := b = 32 ∨ b = 9 ∨ b = 13 ∨ b = 10

instance : DecidablePred Blank := fun b => inferInstanceAs (Decidable (b = 32 ∨ b = 9 ∨ b = 13 ∨ b = 10))

def NoBlank (s : List UInt8) : Prop := ∀ b ∈ s.head?, ¬ Blank b

/-- What may follow a value: nothing, a blank, a comma or a closing bracket. -/
def Ends (s : List UInt8) : Prop := ∀ b ∈ s.head?, Blank b ∨ b = 44 ∨ b = 93 ∨ b = 125

theorem lead_blank (p : Bool) (d : Nat) : ∀ b ∈ lead p d, Blank b := by
  intro b hb
  cases p
  · simp [lead] at hb
  · simp only [lead, if_true, List.mem_cons, List.mem_replicate] at hb
    rcases hb with rfl | ⟨_, rfl⟩ <;> simp [Blank]

theorem gap_blank (p : Bool) : ∀ b ∈ gap p, Blank b := by
  intro b hb
  cases p <;> simp_all [gap, Blank]

/-! ## Measures of a value -/

mutual
/-- Every number of the value is an unsigned 64-bit integer, as in the trace files. -/
def plain : Json → Bool
  | .null => true
  | .bool _ => true
  | .num (.nat n) => decide (n ≤ Reader.u64Max)
  | .num (.neg _) => false
  | .num (.float _) => false
  | .str _ => true
  | .arr items => plainItems items
  | .obj members => plainMembers members

def plainItems : List Json → Bool
  | [] => true
  | v :: vs => plain v && plainItems vs

def plainMembers : List (String × Json) → Bool
  | [] => true
  | (_, v) :: ms => plain v && plainMembers ms
end

mutual
/-- The fuel reading the value takes: one for each value and one for each item or member read,
the end of a container counting as one more. -/
def weight : Json → Nat
  | .null => 1
  | .bool _ => 1
  | .num _ => 1
  | .str _ => 1
  | .arr items => 1 + weightItems items
  | .obj members => 1 + weightMembers members

def weightItems : List Json → Nat
  | [] => 1
  | v :: vs => 1 + weight v + weightItems vs

def weightMembers : List (String × Json) → Nat
  | [] => 1
  | (_, v) :: ms => 1 + weight v + weightMembers ms
end

mutual
/-- How many containers are open at the value's deepest point. -/
def nesting : Json → Nat
  | .null => 0
  | .bool _ => 0
  | .num _ => 0
  | .str _ => 0
  | .arr items => nestingItems items + 1
  | .obj members => nestingMembers members + 1

def nestingItems : List Json → Nat
  | [] => 0
  | v :: vs => max (nesting v) (nestingItems vs)

def nestingMembers : List (String × Json) → Nat
  | [] => 0
  | (_, v) :: ms => max (nesting v) (nestingMembers ms)
end

theorem plainItems_iff (vs : List Json) : plainItems vs = true ↔ ∀ v ∈ vs, v.plain = true := by
  induction vs with
  | nil => simp [plainItems]
  | cons v vs ih => simp [plainItems, ih]

theorem plainMembers_iff (ms : List (String × Json)) :
    plainMembers ms = true ↔ ∀ m ∈ ms, m.2.plain = true := by
  induction ms with
  | nil => simp [plainMembers]
  | cons m ms ih => simp [plainMembers, ih]

theorem nestingItems_le_iff (vs : List Json) (n : Nat) :
    nestingItems vs ≤ n ↔ ∀ v ∈ vs, nesting v ≤ n := by
  induction vs with
  | nil => simp [nestingItems]
  | cons v vs ih => rw [nestingItems, Nat.max_le, ih]; simp

theorem nestingMembers_le_iff (ms : List (String × Json)) (n : Nat) :
    nestingMembers ms ≤ n ↔ ∀ m ∈ ms, nesting m.2 ≤ n := by
  induction ms with
  | nil => simp [nestingMembers]
  | cons m ms ih => rw [nestingMembers, Nat.max_le, ih]; simp

/-! ## Items and members from where a reader stands -/

/-- The items of an array from where a reader stands before one: the first right after the
bracket, a later one before the comma that precedes it. -/
def itemsFrom (pretty : Bool) (depth : Nat) (first : Bool) : List Json → List UInt8
  | [] => []
  | v :: vs => (if first then [] else [44]) ++ spellItems pretty depth (v :: vs)

/-- The members of an object from where a reader stands before one. -/
def membersFrom (pretty : Bool) (depth : Nat) (first : Bool) : List (String × Json) → List UInt8
  | [] => []
  | m :: ms => (if first then [] else [44]) ++ spellMembers pretty depth (m :: ms)

theorem itemsFrom_true (p : Bool) (k : Nat) (vs : List Json) :
    itemsFrom p k true vs = spellItems p k vs := by
  cases vs <;> rfl

theorem membersFrom_true (p : Bool) (k : Nat) (ms : List (String × Json)) :
    membersFrom p k true ms = spellMembers p k ms := by
  cases ms <;> rfl

theorem itemsFrom_cons (p : Bool) (k : Nat) (first : Bool) (v : Json) (vs : List Json) :
    itemsFrom p k first (v :: vs) =
      (if first then [] else [44]) ++ (lead p k ++ spell p k v ++ itemsFrom p k false vs) := by
  cases vs with
  | nil => simp [itemsFrom, spellItems]
  | cons w ws => simp [itemsFrom, spellItems]

theorem membersFrom_cons (p : Bool) (k : Nat) (first : Bool) (key : String) (v : Json)
    (ms : List (String × Json)) :
    membersFrom p k first ((key, v) :: ms) =
      (if first then [] else [44]) ++ (lead p k ++ (quote key).toUTF8.toList ++
        (58 :: (gap p ++ spell p k v ++ membersFrom p k false ms))) := by
  cases ms with
  | nil => simp [membersFrom, spellMembers]
  | cons m ms => simp [membersFrom, spellMembers]

theorem ends_itemsFrom (p : Bool) (k : Nat) (vs : List Json) {bs : List UInt8}
    (hbs : ∀ b ∈ bs, Blank b) (close : UInt8) (hclose : close = 93 ∨ close = 125) (s : List UInt8) :
    Ends (itemsFrom p k false vs ++ bs ++ close :: s) := by
  cases vs with
  | cons m ms => intro b hb; simp [itemsFrom] at hb; simp [← hb]
  | nil =>
    rw [show itemsFrom p k false [] = [] from rfl, List.nil_append]
    cases bs with
    | nil => intro b hb; cases hb; rcases hclose with rfl | rfl <;> decide
    | cons b' bs => intro b hb; cases hb; exact Or.inl (hbs b' (List.mem_cons_self ..))

theorem ends_membersFrom (p : Bool) (k : Nat) (ms : List (String × Json)) {bs : List UInt8}
    (hbs : ∀ b ∈ bs, Blank b) (close : UInt8) (hclose : close = 93 ∨ close = 125) (s : List UInt8) :
    Ends (membersFrom p k false ms ++ bs ++ close :: s) := by
  cases ms with
  | cons m ms => intro b hb; simp [membersFrom] at hb; simp [← hb]
  | nil =>
    rw [show membersFrom p k false [] = [] from rfl, List.nil_append]
    cases bs with
    | nil => intro b hb; cases hb; rcases hclose with rfl | rfl <;> decide
    | cons b' bs => intro b hb; cases hb; exact Or.inl (hbs b' (List.mem_cons_self ..))

/-! ## How a value starts -/

theorem null_bytes (p : Bool) (d : Nat) : spell p d .null = [110, 117, 108, 108] := by
  rw [spell, compact, ByteArray.toList_eq_data]; rfl

theorem true_bytes (p : Bool) (d : Nat) : spell p d (.bool true) = [116, 114, 117, 101] := by
  rw [spell, compact, if_pos rfl, ByteArray.toList_eq_data]; rfl

theorem false_bytes (p : Bool) (d : Nat) : spell p d (.bool false) = [102, 97, 108, 115, 101] := by
  rw [spell, compact, if_neg Bool.false_ne_true, ByteArray.toList_eq_data]; rfl

theorem nat_bytes (p : Bool) (d n : Nat) : spell p d (.num (.nat n)) = digitBytes n := by
  rw [spell, Number.text, toString_bytes]

def Opens (b : UInt8) : Prop := b = 110 ∨ b = 116 ∨ b = 102 ∨ b = 34 ∨ b = 91 ∨ b = 123 ∨ DigitByte b

theorem Opens.not_blank {b : UInt8} (hb : Opens b) : ¬ Blank b ∧ b ≠ 44 ∧ b ≠ 93 ∧ b ≠ 125 := by
  have h : b.toNat = 110 ∨ b.toNat = 116 ∨ b.toNat = 102 ∨ b.toNat = 34 ∨ b.toNat = 91 ∨
      b.toNat = 123 ∨ (48 ≤ b.toNat ∧ b.toNat ≤ 57) := by
    rcases hb with rfl | rfl | rfl | rfl | rfl | rfl | h <;> simp_all [DigitByte]
  simp only [Blank, ne_eq, ← UInt8.toNat_inj, UInt8.toNat_ofNat]
  omega

theorem spell_opens {v : Json} (hv : v.plain) (p : Bool) (d : Nat) :
    ∃ b t, spell p d v = b :: t ∧ Opens b := by
  match v with
  | .null => exact ⟨_, _, null_bytes p d, Or.inl rfl⟩
  | .bool true => exact ⟨_, _, true_bytes p d, Or.inr (Or.inl rfl)⟩
  | .bool false => exact ⟨_, _, false_bytes p d, Or.inr (Or.inr (Or.inl rfl))⟩
  | .num (.nat n) =>
    obtain ⟨b, bs, hbs, _, _⟩ := digitBytes_cons n
    have hb := digitBytes_digits n b (by rw [hbs]; exact List.mem_cons_self ..)
    exact ⟨b, bs, by rw [nat_bytes, hbs], Or.inr (Or.inr (Or.inr (Or.inr (Or.inr (Or.inr hb)))))⟩
  | .str t =>
    exact ⟨34, t.toList.flatMap escapedBytes ++ [34], by rw [spell, quote_bytes, List.cons_append], Or.inr (Or.inr (Or.inr (Or.inl rfl)))⟩
  | .arr [] => exact ⟨91, _, by rw [spell], Or.inr (Or.inr (Or.inr (Or.inr (Or.inl rfl))))⟩
  | .arr (w :: ws) =>
    exact ⟨91, spellItems p (d + 1) (w :: ws) ++ lead p d ++ [93],
      by rw [spell, List.cons_append, List.cons_append],
      Or.inr (Or.inr (Or.inr (Or.inr (Or.inl rfl))))⟩
  | .obj [] => exact ⟨123, _, by rw [spell], Or.inr (Or.inr (Or.inr (Or.inr (Or.inr (Or.inl rfl)))))⟩
  | .obj (m :: ms) =>
    exact ⟨123, spellMembers p (d + 1) (m :: ms) ++ lead p d ++ [125],
      by rw [spell, List.cons_append, List.cons_append],
      Or.inr (Or.inr (Or.inr (Or.inr (Or.inr (Or.inl rfl)))))⟩

theorem spell_head_null {v : Json} (hv : v.plain) {p : Bool} {k : Nat} {t : List UInt8}
    (h : spell p k v = 110 :: t) : v = .null := by
  match v with
  | .null => rfl
  | .bool true => rw [true_bytes] at h; cases h
  | .bool false => rw [false_bytes] at h; cases h
  | .num (.nat n) =>
    rw [nat_bytes] at h
    have := digitBytes_digits n 110 (by rw [h]; exact List.mem_cons_self ..)
    simp [DigitByte] at this
  | .str _ => rw [spell, quote_bytes] at h; cases h
  | .arr [] => rw [spell] at h; cases h
  | .arr (_ :: _) => rw [spell] at h; cases h
  | .obj [] => rw [spell] at h; cases h
  | .obj (_ :: _) => rw [spell] at h; cases h

/-! ## Fuel and length -/

theorem quote_length (key : String) : 2 ≤ (quote key).toUTF8.toList.length := by
  rw [quote_bytes]
  simp

mutual
theorem weight_lt_length : ∀ (v : Json), v.plain → ∀ (p : Bool) (k : Nat),
    weight v < 2 * (spell p k v).length
  | .arr [], _, p, k => by simp [weight, weightItems, spell]
  | .arr (w :: ws), hv, p, k => by
    have h := weightItems_le_length (w :: ws) (by simpa [plain] using hv) p (k + 1)
    simp only [weight, spell, List.length_append, List.length_cons] at h ⊢
    omega
  | .obj [], _, p, k => by simp [weight, weightMembers, spell]
  | .obj (m :: ms), hv, p, k => by
    have h := weightMembers_le_length (m :: ms) (by simpa [plain] using hv) p (k + 1)
    simp only [weight, spell, List.length_append, List.length_cons] at h ⊢
    omega
  | .null, hv, p, k | .bool _, hv, p, k | .num _, hv, p, k | .str _, hv, p, k => by
    obtain ⟨b, t, hspell, _⟩ := spell_opens hv p k
    simp only [weight, hspell, List.length_cons]
    omega

theorem weightItems_le_length : ∀ (vs : List Json), plainItems vs → ∀ (p : Bool) (k : Nat),
    weightItems vs ≤ 2 * (spellItems p k vs).length + 1
  | [], _, p, k => by simp [weightItems, spellItems]
  | [v], hv, p, k => by
    have h := weight_lt_length v (by simp_all [plainItems]) p k
    simp only [weightItems, spellItems, List.length_append] at h ⊢
    omega
  | v :: w :: ws, hv, p, k => by
    simp only [plainItems, Bool.and_eq_true] at hv
    have h := weight_lt_length v hv.1 p k
    have hrest := weightItems_le_length (w :: ws) (by simpa [plainItems] using hv.2) p k
    simp only [weightItems, spellItems, List.length_append, List.length_cons] at h hrest ⊢
    omega

theorem weightMembers_le_length : ∀ (ms : List (String × Json)), plainMembers ms → ∀ (p : Bool) (k : Nat),
    weightMembers ms ≤ 2 * (spellMembers p k ms).length + 1
  | [], _, p, k => by simp [weightMembers, spellMembers]
  | [(key, v)], hv, p, k => by
    have h := weight_lt_length v (by simp_all [plainMembers]) p k
    have hq := quote_length key
    simp only [weightMembers, spellMembers, List.length_append, List.length_cons] at h ⊢
    omega
  | (key, v) :: m :: ms, hv, p, k => by
    simp only [plainMembers, Bool.and_eq_true] at hv
    have h := weight_lt_length v hv.1 p k
    have hq := quote_length key
    have hrest := weightMembers_le_length (m :: ms) (by simpa [plainMembers] using hv.2) p k
    simp only [weightMembers, spellMembers, List.length_append, List.length_cons] at h hrest ⊢
    omega
end

theorem length_le_itemsFrom (p : Bool) (k : Nat) (first : Bool) :
    ∀ (vs : List Json), plainItems vs = true → vs.length ≤ (itemsFrom p k first vs).length
  | [], _ => by simp [itemsFrom]
  | v :: vs, hv => by
    simp only [plainItems, Bool.and_eq_true] at hv
    obtain ⟨b, t, hspell, _⟩ := spell_opens hv.1 p k
    have h := length_le_itemsFrom p k false vs hv.2
    rw [itemsFrom_cons, hspell]
    simp only [List.length_append, List.length_cons]
    omega

theorem length_le_membersFrom (p : Bool) (k : Nat) (first : Bool) :
    ∀ (ms : List (String × Json)), ms.length ≤ (membersFrom p k first ms).length
  | [] => by simp [membersFrom]
  | (key, v) :: ms => by
    have h := length_le_membersFrom p k false ms
    have hq := quote_length key
    rw [membersFrom_cons]
    simp only [List.length_append, List.length_cons]
    omega

/-! ## Compact text is printable -/

theorem quote_printable (s : String) : ∀ b ∈ (quote s).toUTF8.toList, 32 ≤ b.toNat := by
  rw [quote_bytes]
  intro b h
  simp only [List.mem_cons, List.mem_append, List.mem_flatMap, List.not_mem_nil, or_false] at h
  rcases h with (rfl | ⟨c, -, hc⟩) | rfl
  · decide
  · exact escapedBytes_printable c b hc
  · decide

mutual
/-- Compact text has no byte below the space: strings escape their control characters and no
layout is added. -/
theorem compact_printable : ∀ (v : Json), v.plain → ∀ (k : Nat), ∀ b ∈ spell false k v, 32 ≤ b.toNat
  | .null, _, k => by rw [null_bytes]; decide +kernel
  | .bool true, _, k => by rw [true_bytes]; decide +kernel
  | .bool false, _, k => by rw [false_bytes]; decide +kernel
  | .num (.nat n), _, k => by
    rw [nat_bytes]
    intro b hb
    have := digitBytes_digits n b hb
    simp only [DigitByte] at this
    omega
  | .num (.neg _), hv, _ | .num (.float _), hv, _ => by simp [plain] at hv
  | .str s, _, k => by rw [spell]; exact quote_printable s
  | .arr [], _, k => by rw [spell]; decide +kernel
  | .arr (w :: ws), hv, k => by
    have h := compact_printableItems (w :: ws) (by simpa [plain] using hv) (k + 1)
    simp [spell, lead]
    rintro b (hb | rfl)
    · exact h b hb
    · decide
  | .obj [], _, k => by rw [spell]; decide +kernel
  | .obj (m :: ms), hv, k => by
    have h := compact_printableMembers (m :: ms) (by simpa [plain] using hv) (k + 1)
    simp [spell, lead]
    rintro b (hb | rfl)
    · exact h b hb
    · decide

theorem compact_printableItems : ∀ (vs : List Json), plainItems vs → ∀ (k : Nat),
    ∀ b ∈ spellItems false k vs, 32 ≤ b.toNat
  | [], _, k => by simp [spellItems]
  | [v], hv, k => by
    simpa [spellItems, lead] using compact_printable v (by simp_all [plainItems]) k
  | v :: w :: ws, hv, k => by
    simp only [plainItems, Bool.and_eq_true] at hv
    have h := compact_printable v hv.1 k
    have hrest := compact_printableItems (w :: ws) (by simpa [plainItems] using hv.2) k
    simp [spellItems, lead]
    rintro b (hb | rfl | hb)
    · exact h b hb
    · decide
    · exact hrest b hb

theorem compact_printableMembers : ∀ (ms : List (String × Json)), plainMembers ms →
    ∀ (k : Nat), ∀ b ∈ spellMembers false k ms, 32 ≤ b.toNat
  | [], _, k => by simp [spellMembers]
  | [(key, v)], hv, k => by
    have h := compact_printable v (by simp_all [plainMembers]) k
    have hq := quote_printable key
    simp only [String.toUTF8_eq_toByteArray] at hq
    simp [spellMembers, lead, gap]
    rintro b (hb | rfl | hb)
    · exact hq b hb
    · decide
    · exact h b hb
  | (key, v) :: m :: ms, hv, k => by
    simp only [plainMembers, Bool.and_eq_true] at hv
    have h := compact_printable v hv.1 k
    have hq := quote_printable key
    have hrest := compact_printableMembers (m :: ms) (by simpa [plainMembers] using hv.2) k
    simp only [String.toUTF8_eq_toByteArray] at hq
    simp [spellMembers, lead, gap]
    rintro b (hb | rfl | hb | rfl | hb)
    · exact hq b hb
    · decide
    · exact h b hb
    · decide
    · exact hrest b hb
end

end Json

end RunJournal

import RunJournal.Proofs.JsonText
/-!
# Reading JSON text back

`Reads src depth r input rest a`: from any place in a text of source `src` with nesting budget
`depth`, reader `r` takes `input` down to `rest`, gives `a`, and hands the budget back as it
found it. Readers compose by `Reads.bind`, so each proof below follows the reader's own steps.

Leaves first: blanks, literal words, string literals one character at a time (`stringBody_chars`),
natural numbers by a digit loop, both as given text streams them and as buffered text reads them
exactly. Then any value of the layout `spell`, by induction on the value (`value_reads`), which
needs a value's numbers to fit 64 bits (`plain`), enough fuel (`weight`) and enough budget
(`nesting`), and what follows a number not to continue it (`Ends`).
-/

namespace RunJournal.Json

open Reader

variable {α β : Type}

/-- `r` takes `input` down to `rest` and gives `a`, wherever the text stands. -/
def Reads (src : Source) (depth : Nat) (r : Reader α) (input rest : List UInt8) (a : α) : Prop :=
  ∀ line column, ∃ line' column',
    r.run.run ⟨input, line, column, depth, src⟩ = (.ok a, ⟨rest, line', column', depth, src⟩)

theorem run_bind (r : Reader α) (f : α → Reader β) (c : Cursor) :
    (r >>= f).run.run c = match r.run.run c with
      | (.ok a, c') => (f a).run.run c'
      | (.error e, c') => (.error e, c') := by
  simp only [ExceptT.run_bind, StateT.run_bind]
  rcases r.run.run c with ⟨_ | _, c'⟩ <;> rfl

section Steps

variable {src : Source} {d : Nat} {s s₁ s₂ s₃ : List UInt8}

theorem Reads.pure (a : α) : Reads src d (Pure.pure a) s s a :=
  fun line column => ⟨line, column, rfl⟩

theorem Reads.bind {r : Reader α} {f : α → Reader β} {a : α} {x : β}
    (hr : Reads src d r s₁ s₂ a) (hf : Reads src d (f a) s₂ s₃ x) :
    Reads src d (r >>= f) s₁ s₃ x := by
  intro line column
  obtain ⟨line₁, column₁, h₁⟩ := hr line column
  obtain ⟨line₂, column₂, h₂⟩ := hf line₁ column₁
  exact ⟨line₂, column₂, by rw [run_bind, h₁]; exact h₂⟩

theorem Reads.map {r : Reader α} {f : α → β} {a : α} (hr : Reads src d r s₁ s₂ a) :
    Reads src d (f <$> r) s₁ s₂ (f a) := by
  rw [map_eq_pure_bind]
  exact hr.bind (Reads.pure _)

theorem Reads.get_bind {f : Cursor → Reader α} {a : α}
    (hf : ∀ line column, Reads src d (f ⟨s₁, line, column, d, src⟩) s₁ s₂ a) :
    Reads src d (get >>= f) s₁ s₂ a := by
  intro line column
  obtain ⟨line', column', h⟩ := hf line column line column
  exact ⟨line', column', by rw [run_bind]; exact h⟩

theorem Reads.peek : Reads src d Reader.peek s s s.head? :=
  fun line column => ⟨line, column, rfl⟩

theorem Reads.source : Reads src d Reader.source s s src :=
  fun line column => ⟨line, column, rfl⟩

theorem bump_run (c : Cursor) : Reader.bump.run.run c = (.ok (), c.bump) := rfl

theorem Reads.bump_cons (b : UInt8) : Reads src d Reader.bump (b :: s) s () := by
  intro line column
  rw [bump_run]
  by_cases hb : b = 10
  · exact ⟨line + 1, 0, by simp [Cursor.bump, hb]⟩
  · exact ⟨line, column + 1, by simp [Cursor.bump, hb]⟩

theorem Reads.next (b : UInt8) : Reads src d Reader.next (b :: s) s (some b) :=
  Reads.peek.bind ((Reads.bump_cons b).bind (Reads.pure _))

theorem skipBlanks_blanks {bs : List UInt8} (hbs : ∀ b ∈ bs, Blank b) (hs : NoBlank s)
    (line column : Nat) : ∃ line' column', skipBlanks (bs ++ s) line column = (s, line', column') := by
  induction bs generalizing line column with
  | nil =>
    cases s with
    | nil => exact ⟨line, column, rfl⟩
    | cons b s =>
      have hb : ¬ Blank b := hs b rfl
      simp only [Blank, not_or] at hb
      exact ⟨line, column, by simp [skipBlanks, hb]⟩
  | cons b bs ih =>
    have hb := hbs b (List.mem_cons_self ..)
    have hrest := fun b hb => hbs b (List.mem_cons_of_mem _ hb)
    rcases hb with rfl | rfl | rfl | rfl
    · obtain ⟨l, c, h⟩ := ih hrest line (column + 1)
      exact ⟨l, c, by simp [skipBlanks, h]⟩
    · obtain ⟨l, c, h⟩ := ih hrest line (column + 1)
      exact ⟨l, c, by simp [skipBlanks, h]⟩
    · obtain ⟨l, c, h⟩ := ih hrest line (column + 1)
      exact ⟨l, c, by simp [skipBlanks, h]⟩
    · obtain ⟨l, c, h⟩ := ih hrest (line + 1) 0
      exact ⟨l, c, by simp [skipBlanks, h]⟩

theorem skipWs_run (c : Cursor) : Reader.skipWs.run.run c =
    (.ok (), { c with rest := (skipBlanks c.rest c.line c.column).1,
                      line := (skipBlanks c.rest c.line c.column).2.1,
                      column := (skipBlanks c.rest c.line c.column).2.2 }) := rfl

theorem Reads.skipWs {bs : List UInt8} (hbs : ∀ b ∈ bs, Blank b) (hs : NoBlank s) :
    Reads src d Reader.skipWs (bs ++ s) s () := by
  intro line column
  obtain ⟨line', column', h⟩ := skipBlanks_blanks hbs hs line column
  exact ⟨line', column', by rw [skipWs_run]; simp [h]⟩

theorem Reads.skipWs_none (hs : NoBlank s) : Reads src d Reader.skipWs s s () :=
  (Reads.skipWs (fun _ h => absurd h List.not_mem_nil) hs : Reads src d _ ([] ++ s) s ())

theorem Reads.ident (ws : List UInt8) : Reads src d (Reader.ident ws) (ws ++ s) s () := by
  induction ws with
  | nil => exact Reads.pure ()
  | cons w ws ih =>
    rw [Reader.ident, List.cons_append]
    refine (Reads.next w).bind ?_
    simpa using ih

theorem tryCatch_run_ok {r : Reader α} (h : Fault → Reader α) {c c' : Cursor} {a : α}
    (hr : r.run.run c = (.ok a, c')) : (tryCatch r h).run.run c = (.ok a, c') := by
  show (ExceptT.tryCatch r h).run.run c = _
  simp only [ExceptT.tryCatch, ExceptT.run_mk, StateT.run_bind]
  have hr' : StateT.run r c = (.ok a, c') := hr
  rw [hr']
  rfl

theorem Reads.placeFaults {r : Reader α} {a : α} (hr : Reads src d r s₁ s₂ a) :
    Reads src d (Reader.placeFaults r) s₁ s₂ a := by
  intro line column
  obtain ⟨line', column', h⟩ := hr line column
  exact ⟨line', column', tryCatch_run_ok _ h⟩

theorem Reads.attempt {r : Reader α} {a : α} (hr : Reads src d r s₁ s₂ a) :
    Reads src d (Reader.attempt r) s₁ s₂ (.ok a) := by
  intro line column
  obtain ⟨line', column', h⟩ := hr.map (f := Except.ok) line column
  exact ⟨line', column', tryCatch_run_ok _ h⟩

theorem Reads.thenClose {body : Reader α} {close : Reader Unit} {a : α}
    (hbody : Reads src d body s₁ s₂ a) (hclose : Reads src d close s₂ s₃ ()) :
    Reads src d (Reader.thenClose body close) s₁ s₃ a :=
  hbody.attempt.bind (hclose.attempt.bind (Reads.pure a))

theorem get_run (c : Cursor) : (get : Reader Cursor).run.run c = (.ok c, c) := rfl

theorem set_run (c c' : Cursor) : (set c' : Reader PUnit).run.run c = (.ok PUnit.unit, c') := rfl

theorem modify_run (f : Cursor → Cursor) (c : Cursor) :
    (modify f : Reader PUnit).run.run c = (.ok PUnit.unit, f c) := rfl

/-- A container is opened within the budget, and the budget is handed back when it closes. -/
theorem Reads.nested {r : Reader α} {a : α} (hr : Reads src (d - 1) r s₁ s₂ a)
    (hd : ¬ (src = .text ∧ d ≤ 1)) (hd1 : 1 ≤ d) : Reads src d (Reader.nested r) s₁ s₂ a := by
  intro line column
  obtain ⟨line', column', h⟩ := hr line column
  refine ⟨line', column', ?_⟩
  rw [Reader.nested, run_bind, get_run]
  simp only [hd, if_false]
  rw [run_bind, set_run]
  dsimp only
  rw [run_bind, h]
  dsimp only
  rw [run_bind, modify_run]
  simp only [Nat.sub_add_cancel hd1]
  rfl

end Steps

/-! ## String literals -/

section Strings

variable {src : Source} {d fuel : Nat} {s s' : List UInt8} {acc : List UInt8} {x : List UInt8}

theorem Reads.stringBody_close : Reads src d (stringBody (fuel + 1) acc) (34 :: s) s acc.reverse := by
  rw [stringBody]
  refine Reads.peek.bind ?_
  simp only [List.head?_cons, if_true]
  exact (Reads.bump_cons 34).bind (Reads.pure _)

theorem Reads.stringBody_plain {b : UInt8} (hb : PlainByte b)
    (h : Reads src d (stringBody fuel (b :: acc)) s s' x) :
    Reads src d (stringBody (fuel + 1) acc) (b :: s) s' x := by
  have h32 : ¬ b < 32 := by rw [UInt8.lt_iff_toNat_lt]; have := hb.1; simp; omega
  rw [stringBody]
  refine Reads.peek.bind ?_
  simp only [List.head?_cons, hb.2.1, hb.2.2, h32, if_false]
  exact (Reads.bump_cons b).bind h

theorem Reads.stringBody_plains {bs : List UInt8} (hbs : ∀ b ∈ bs, PlainByte b)
    (h : Reads src d (stringBody fuel (bs.reverse ++ acc)) s s' x) :
    Reads src d (stringBody (fuel + bs.length) acc) (bs ++ s) s' x := by
  induction bs generalizing acc fuel with
  | nil => simpa using h
  | cons b bs ih =>
    rw [List.length_cons, ← Nat.add_assoc, List.cons_append]
    have hrest : Reads src d (stringBody fuel (bs.reverse ++ b :: acc)) s s' x := by simpa using h
    exact Reads.stringBody_plain (hbs b (List.mem_cons_self ..))
      (ih (fun b hb => hbs b (List.mem_cons_of_mem _ hb)) hrest)

theorem hexValue_hexByte : ∀ x : Fin 16, hexValue (hexByte x.val) = some x.val := by decide

theorem Reads.hexEscape {a b c e : UInt8} {va vb vc ve : Nat} (ha : hexValue a = some va)
    (hb : hexValue b = some vb) (hc : hexValue c = some vc) (he : hexValue e = some ve) :
    Reads src d Reader.hexEscape (a :: b :: c :: e :: s) s (((va * 16 + vb) * 16 + vc) * 16 + ve) := by
  rw [Reader.hexEscape]
  refine Reads.get_bind fun _ _ => ?_
  refine (Reads.bump_cons a).bind ((Reads.bump_cons b).bind ((Reads.bump_cons c).bind
    ((Reads.bump_cons e).bind ?_)))
  simp only [ha, hb, hc, he]
  exact Reads.pure _

/-- A `\u` escape of a code point below the surrogates is that code point's bytes. -/
theorem Reads.unicodeEscape_bmp {n : Nat} (hhex : Reads src d Reader.hexEscape s s' n)
    (hn : n < 0xD800) : Reads src d Reader.unicodeEscape s s' (utf8Bytes n) := by
  rw [Reader.unicodeEscape]
  refine hhex.bind ?_
  simp only [show ¬ (0xDC00 ≤ n ∧ n ≤ 0xDFFF) by omega, show n < 0xD800 ∨ 0xDBFF < n by omega,
    if_false, if_true]
  exact Reads.pure _

theorem Reads.escape_unicode {out : List UInt8} (h : Reads src d Reader.unicodeEscape s s' out) :
    Reads src d Reader.escape (117 :: s) s' out := by
  rw [Reader.escape]
  refine (Reads.next 117).bind ?_
  simpa using h

theorem Reads.escape_short {e : UInt8} {out : List UInt8}
    (h : (e = 34 ∧ out = [34]) ∨ (e = 92 ∧ out = [92]) ∨ (e = 98 ∧ out = [8]) ∨
      (e = 102 ∧ out = [12]) ∨ (e = 110 ∧ out = [10]) ∨ (e = 114 ∧ out = [13]) ∨
      (e = 116 ∧ out = [9])) :
    Reads src d Reader.escape (e :: s) s out := by
  rw [Reader.escape]
  refine (Reads.next e).bind ?_
  rcases h with ⟨rfl, rfl⟩ | ⟨rfl, rfl⟩ | ⟨rfl, rfl⟩ | ⟨rfl, rfl⟩ | ⟨rfl, rfl⟩ | ⟨rfl, rfl⟩ |
    ⟨rfl, rfl⟩ <;> exact Reads.pure _

theorem Reads.stringBody_escape {s₁ : List UInt8} {out : List UInt8}
    (he : Reads src d Reader.escape s₁ s out)
    (h : Reads src d (stringBody fuel (out.reverse ++ acc)) s s' x) :
    Reads src d (stringBody (fuel + 1) acc) (92 :: s₁) s' x := by
  rw [stringBody]
  refine Reads.peek.bind ?_
  simp only [List.head?_cons, show (92 : UInt8) ≠ 34 by decide, if_false, if_true]
  exact (Reads.bump_cons 92).bind (he.bind h)

theorem utf8Bytes_toNat (c : Char) : utf8Bytes c.toNat = String.utf8EncodeChar c := by
  rw [utf8Bytes, Char.ofNat_toNat, singleton_toUTF8_toList]

/-- One character of a literal, as the writer escapes it, is read back as its UTF-8 bytes. Plain
characters take one round of fuel per byte, escapes one in all. -/
theorem Reads.stringBody_char (c : Char) (hfuel : (escapedBytes c).length ≤ fuel)
    (h : ∀ f, fuel - (escapedBytes c).length ≤ f →
      Reads src d (stringBody f ((String.utf8EncodeChar c).reverse ++ acc)) s s' x) :
    Reads src d (stringBody fuel acc) (escapedBytes c ++ s) s' x := by
  have short : ∀ {e : UInt8} {out : List UInt8}, escapedBytes c = [92, e] →
      String.utf8EncodeChar c = out →
      ((e = 34 ∧ out = [34]) ∨ (e = 92 ∧ out = [92]) ∨ (e = 98 ∧ out = [8]) ∨
        (e = 102 ∧ out = [12]) ∨ (e = 110 ∧ out = [10]) ∨ (e = 114 ∧ out = [13]) ∨
        (e = 116 ∧ out = [9])) →
      Reads src d (stringBody fuel acc) (escapedBytes c ++ s) s' x := by
    intro e out hesc hout htable
    rw [hesc] at hfuel h ⊢
    obtain ⟨f, rfl⟩ : ∃ f, fuel = f + 1 := ⟨fuel - 1, by simp at hfuel; omega⟩
    rw [hout] at h
    exact Reads.stringBody_escape (Reads.escape_short htable) (h f (by simp))
  by_cases hq : c = '"'
  · subst hq; exact short escapedBytes_quote rfl (by decide)
  by_cases hb : c = '\\'
  · subst hb; exact short escapedBytes_backslash rfl (by decide)
  by_cases hctl : 0x20 ≤ c.toNat
  · obtain ⟨hplain, hbytes⟩ := escapedBytes_plain hq hb hctl
    rw [hplain] at hfuel h ⊢
    obtain ⟨f, rfl⟩ : ∃ f, fuel = f + (String.utf8EncodeChar c).length := ⟨_, (Nat.sub_add_cancel hfuel).symm⟩
    exact Reads.stringBody_plains hbytes (h f (by omega))
  by_cases hnl : c = '\n'
  · subst hnl; exact short escapedBytes_newline rfl (by decide)
  by_cases hcr : c = '\r'
  · subst hcr; exact short escapedBytes_return rfl (by decide)
  by_cases htab : c = '\t'
  · subst htab; exact short escapedBytes_tab rfl (by decide)
  by_cases h8 : c.toNat = 8
  · have hc := ascii_eq_of_toNat h8
    subst hc
    exact short escapedBytes_backspace rfl (by decide)
  by_cases h12 : c.toNat = 12
  · have hc := ascii_eq_of_toNat h12
    subst hc
    exact short escapedBytes_formfeed rfl (by decide)
  have hhex := escapedBytes_hex (by omega) hnl hcr htab h8 h12
  rw [hhex] at hfuel h ⊢
  obtain ⟨f, rfl⟩ : ∃ f, fuel = f + 1 := ⟨fuel - 1, by simp at hfuel; omega⟩
  have hvalue : ((0 * 16 + 0) * 16 + c.toNat / 16) * 16 + c.toNat % 16 = c.toNat := by omega
  have hread : Reads src d Reader.hexEscape (48 :: 48 :: hexByte (c.toNat / 16) ::
      hexByte (c.toNat % 16) :: s) s (((0 * 16 + 0) * 16 + c.toNat / 16) * 16 + c.toNat % 16) :=
    Reads.hexEscape (show hexValue 48 = some 0 by decide) (show hexValue 48 = some 0 by decide)
      (hexValue_hexByte ⟨c.toNat / 16, by omega⟩) (hexValue_hexByte ⟨c.toNat % 16, by omega⟩)
  rw [hvalue] at hread
  have hunicode := Reads.unicodeEscape_bmp hread (by omega)
  rw [utf8Bytes_toNat] at hunicode
  exact Reads.stringBody_escape (Reads.escape_unicode hunicode) (h f (by simp))

/-- The body of a literal the writer made, read to its closing quote, gives the characters'
UTF-8 bytes, whatever the fuel above one round per byte. -/
theorem Reads.stringBody_chars (cs : List Char) :
    ∀ fuel acc, (cs.flatMap escapedBytes).length < fuel →
      Reads src d (stringBody fuel acc) (cs.flatMap escapedBytes ++ 34 :: s) s
        (acc.reverse ++ cs.flatMap String.utf8EncodeChar) := by
  induction cs with
  | nil =>
    intro fuel acc hfuel
    obtain ⟨f, rfl⟩ : ∃ f, fuel = f + 1 := ⟨fuel - 1, by simp at hfuel; omega⟩
    simpa using Reads.stringBody_close
  | cons c cs ih =>
    intro fuel acc hfuel
    rw [List.flatMap_cons, List.length_append] at hfuel
    rw [List.flatMap_cons, List.append_assoc]
    refine Reads.stringBody_char c (by omega) fun f hf => ?_
    have hrest := ih f ((String.utf8EncodeChar c).reverse ++ acc) (by omega)
    simpa using hrest

/-- A literal the writer made, its opening quote taken, is read back as the string. -/
theorem Reads.string (t : String) :
    Reads src d Reader.string (t.toList.flatMap escapedBytes ++ 34 :: s) s t := by
  rw [Reader.string]
  refine Reads.get_bind fun _ _ => ?_
  have hbody : Reads src d (stringBody ((t.toList.flatMap escapedBytes ++ 34 :: s).length + 1) [])
      (t.toList.flatMap escapedBytes ++ 34 :: s) s
      ([].reverse ++ t.toList.flatMap String.utf8EncodeChar) :=
    Reads.stringBody_chars t.toList _ []
      (by simp only [List.length_append, List.length_cons]; omega)
  refine hbody.bind ?_
  rw [List.reverse_nil, List.nil_append, ← toUTF8_toList_eq_flatMap]
  simp only [fromUTF8?_toUTF8_toList]
  exact Reads.pure t

theorem Reads.quote (t : String) :
    Reads src d (do Reader.bump; Reader.string) ((quote t).toUTF8.toList ++ s) s t := by
  rw [quote_bytes]
  simp only [List.cons_append, List.append_assoc]
  exact (Reads.bump_cons 34).bind (Reads.string t)

end Strings

/-! ## Natural numbers -/

section Numbers

variable {src : Source} {d : Nat} {s s' : List UInt8}

theorem digit?_digit {b : UInt8} (hb : DigitByte b) : digit? (some b) = some (b.toNat - 48) := by
  have h48 : (48 : UInt8) ≤ b := by rw [UInt8.le_iff_toNat_le]; exact hb.1
  have h57 : b ≤ (57 : UInt8) := by rw [UInt8.le_iff_toNat_le]; exact hb.2
  simp [digit?, h48, h57]

theorem Ends.digit?_none (hs : Ends s) : digit? s.head? = none := by
  cases s with
  | nil => rfl
  | cons b s =>
    rcases hs b rfl with (rfl | rfl | rfl | rfl) | rfl | rfl | rfl <;> rfl

theorem Ends.cons {b : UInt8} (hs : Ends (b :: s)) :
    b = 32 ∨ b = 9 ∨ b = 13 ∨ b = 10 ∨ b = 44 ∨ b = 93 ∨ b = 125 := by
  rcases hs b rfl with (h | h | h | h) | h | h | h <;> simp [h]

/-- What follows an integer that is not a fraction or an exponent leaves it an integer. -/
theorem Reads.numberTail_nat (hs : Ends s) (v : Nat) :
    Reads src d (numberTail true v) s s (.nat v) := by
  rw [numberTail]
  refine Reads.peek.bind ?_
  cases s with
  | nil => exact Reads.pure _
  | cons b s => rcases hs.cons with rfl | rfl | rfl | rfl | rfl | rfl | rfl <;> exact Reads.pure _

/-- The streaming digit loop reads digits while the value stays within 64 bits. -/
theorem Reads.integerDigits {bs : List UInt8} (hbs : ∀ b ∈ bs, DigitByte b) (hs : Ends s) :
    ∀ fuel sig, bs.length < fuel → digitsValue sig bs ≤ u64Max →
      Reads src d (integerDigits true fuel sig) (bs ++ s) s (.nat (digitsValue sig bs)) := by
  induction bs with
  | nil =>
    intro fuel sig hfuel _
    obtain ⟨f, rfl⟩ : ∃ f, fuel = f + 1 := ⟨fuel - 1, by simp at hfuel; omega⟩
    rw [Reader.integerDigits]
    refine Reads.peek.bind ?_
    rw [List.nil_append, hs.digit?_none]
    exact Reads.numberTail_nat hs sig
  | cons b bs ih =>
    intro fuel sig hfuel hmax
    obtain ⟨f, rfl⟩ : ∃ f, fuel = f + 1 := ⟨fuel - 1, by simp at hfuel; omega⟩
    have hb := hbs b (List.mem_cons_self ..)
    have hnext : digitsValue sig (b :: bs) = digitsValue (sig * 10 + (b.toNat - 48)) bs := rfl
    have hle := le_digitsValue (sig * 10 + (b.toNat - 48)) bs
    rw [Reader.integerDigits]
    refine Reads.peek.bind ?_
    simp only [List.cons_append, List.head?_cons, digit?_digit hb]
    rw [if_neg (by omega), hnext]
    exact (Reads.bump_cons b).bind (ih (fun b hb => hbs b (List.mem_cons_of_mem _ hb)) f _
      (by simp at hfuel; omega) (by rw [← hnext]; exact hmax))

theorem Reads.streamedNumber_nat {n : Nat} (hn : n ≤ u64Max) (hs : Ends s) :
    Reads src d (streamedNumber true) (digitBytes n ++ s) s (.nat n) := by
  obtain ⟨b, bs, hbytes, hvalue, hzero⟩ := digitBytes_cons n
  have hdigits := digitBytes_digits n
  rw [hbytes] at hdigits
  rw [Reader.streamedNumber, hbytes, List.cons_append]
  refine (Reads.next b).bind ?_
  by_cases h48 : b = 48
  · have hbs := hzero h48
    subst hbs
    simp only [h48, if_true, List.nil_append]
    refine Reads.peek.bind ?_
    rw [hs.digit?_none]
    have : n = 0 := by rw [← hvalue, h48]; rfl
    subst this
    exact Reads.numberTail_nat hs 0
  · simp only [h48, if_false, digit?_digit (hdigits b (List.mem_cons_self ..))]
    refine Reads.get_bind fun _ _ => ?_
    have hread : Reads src d (Reader.integerDigits true ((bs ++ s).length + 1) (b.toNat - 48)) (bs ++ s) s
        (.nat (digitsValue (b.toNat - 48) bs)) :=
      Reads.integerDigits (fun b hb => hdigits b (List.mem_cons_of_mem _ hb)) hs
        ((bs ++ s).length + 1) (b.toNat - 48) (by simp only [List.length_append]; omega)
        (by rw [hvalue]; exact hn)
    rwa [hvalue] at hread

/-- Canonical number characters are taken up to the first byte that cannot continue a number. -/
theorem Reads.numberChars {bs : List UInt8} (hbs : ∀ b ∈ bs, DigitByte b) (hs : Ends s) :
    ∀ fuel acc, bs.length < fuel →
      Reads src d (numberChars fuel acc) (bs ++ s) s (acc.reverse ++ bs.map fun b => Char.ofNat b.toNat) := by
  induction bs with
  | nil =>
    intro fuel acc hfuel
    obtain ⟨f, rfl⟩ : ∃ f, fuel = f + 1 := ⟨fuel - 1, by simp at hfuel; omega⟩
    rw [Reader.numberChars]
    refine Reads.peek.bind ?_
    cases s with
    | nil => simpa using Reads.pure _
    | cons b s =>
      rcases hs.cons with rfl | rfl | rfl | rfl | rfl | rfl | rfl <;> simpa using Reads.pure _
  | cons b bs ih =>
    intro fuel acc hfuel
    obtain ⟨f, rfl⟩ : ∃ f, fuel = f + 1 := ⟨fuel - 1, by simp at hfuel; omega⟩
    have hb := hbs b (List.mem_cons_self ..)
    have h48 : (48 : UInt8) ≤ b := by rw [UInt8.le_iff_toNat_le]; exact hb.1
    have h57 : b ≤ (57 : UInt8) := by rw [UInt8.le_iff_toNat_le]; exact hb.2
    rw [Reader.numberChars]
    refine Reads.peek.bind ?_
    simp only [List.cons_append, List.head?_cons, h48, h57, and_self, true_or, if_true]
    refine (Reads.bump_cons b).bind ?_
    have := ih (fun b hb => hbs b (List.mem_cons_of_mem _ hb)) f (Char.ofNat b.toNat :: acc)
      (by simp at hfuel; omega)
    simpa using this

theorem digitBytes_chars (n : Nat) :
    (digitBytes n).map (fun b => Char.ofNat b.toNat) = Nat.toDigits 10 n := by
  rw [digitBytes, List.map_map]
  conv => rhs; rw [← List.map_id (Nat.toDigits 10 n)]
  refine List.map_congr_left fun c hc => ?_
  simp only [Function.comp_apply, toNat_ofNat_ascii (toDigits_ascii n c hc), Char.ofNat_toNat, id]

theorem foldl_chars_digitsValue {cs : List Char} (h : ∀ c ∈ cs, c.toNat ≤ 0x7f) (init : Nat) :
    cs.foldl (fun n c => n * 10 + (c.toNat - 48)) init =
      digitsValue init (cs.map fun c => UInt8.ofNat c.toNat) := by
  induction cs generalizing init with
  | nil => rfl
  | cons c cs ih =>
    rw [List.foldl_cons, ih (fun c hc => h c (List.mem_cons_of_mem _ hc)), List.map_cons]
    simp [digitsValue, toNat_ofNat_ascii (h c (List.mem_cons_self ..))]

theorem toDigits_digit {n : Nat} {c : Char} (hc : c ∈ Nat.toDigits 10 n) :
    48 ≤ c.toNat ∧ c.toNat ≤ 57 :=
  Char.isDigit_iff_toNat.mp (Nat.isDigit_of_mem_toDigits (by decide) (by decide) hc)

theorem decimalValue_digits (n : Nat) : (decimalValue (Nat.toDigits 10 n)).1 = n := by
  have hchar : ∀ c ∈ Nat.toDigits 10 n, c ≠ 'e' ∧ c ≠ 'E' ∧ c ≠ '.' := by
    intro c hc
    have h := toDigits_digit hc
    refine ⟨fun he => ?_, fun he => ?_, fun he => ?_⟩ <;> (subst he; simp at h)
  have hmant : (Nat.toDigits 10 n).takeWhile (fun c => decide (c ≠ 'e' ∧ c ≠ 'E')) =
      Nat.toDigits 10 n := by
    simpa using @List.takeWhile_append_of_pos _ (fun c => decide (c ≠ 'e' ∧ c ≠ 'E')) _ []
      (fun c hc => by simp [(hchar c hc).1, (hchar c hc).2.1])
  have hint : (Nat.toDigits 10 n).takeWhile (fun c => decide (c ≠ '.')) = Nat.toDigits 10 n := by
    simpa using @List.takeWhile_append_of_pos _ (fun c => decide (c ≠ '.')) _ []
      (fun c hc => by simp [(hchar c hc).2.2])
  simp only [decimalValue, hmant, hint, List.drop_eq_nil_of_le (Nat.le_succ _), List.append_nil]
  rw [foldl_chars_digitsValue (toDigits_ascii n), ← digitBytes, digitsValue_digitBytes]

theorem Reads.exactNumber_nat (n : Nat) (hs : Ends s) :
    Reads src d (exactNumber true) (digitBytes n ++ s) s (.nat n) := by
  rw [Reader.exactNumber]
  refine Reads.get_bind fun _ _ => ?_
  refine (Reads.numberChars (digitBytes_digits n) hs _ []
    (by simp only [List.length_append]; omega)).bind ?_
  have hany : ((Nat.toDigits 10 n).any fun c => decide (c = '.' ∨ c = 'e' ∨ c = 'E')) = false := by
    rw [List.any_eq_false]
    intro c hc
    have h := toDigits_digit hc
    simp only [decide_eq_true_eq, not_or]
    refine ⟨fun he => ?_, fun he => ?_, fun he => ?_⟩ <;> (subst he; simp at h)
  simp only [List.reverse_nil, List.nil_append, digitBytes_chars, hany, Bool.false_eq_true, if_false]
  have hval := decimalValue_digits n
  revert hval
  generalize decimalValue (Nat.toDigits 10 n) = v
  rintro rfl
  exact Reads.pure _

theorem Reads.number_nat {n : Nat} (hn : n ≤ u64Max) (hs : Ends s) :
    Reads src d (number true) (digitBytes n ++ s) s (.nat n) := by
  rw [Reader.number]
  refine Reads.source.bind ?_
  by_cases htext : src = .text
  · subst htext
    simpa using Reads.streamedNumber_nat hn hs
  · simpa [htext] using Reads.exactNumber_nat n hs

end Numbers

/-! ## Containers -/

section Containers

variable {src : Source} {d : Nat} {s : List UInt8}

theorem Opens.noBlank {b : UInt8} (hb : Opens b) (t : List UInt8) : NoBlank (b :: t) := by
  intro b' hb'
  cases hb'
  exact hb.not_blank.1

theorem Reads.nextItem_first {b : UInt8} {t : List UInt8} (hb : Opens b) (p : Bool) (k : Nat) :
    Reads src d (nextItem true) (lead p k ++ b :: t) (b :: t) true := by
  obtain ⟨_, h44, h93, _⟩ := hb.not_blank
  rw [nextItem]
  refine (Reads.skipWs (lead_blank p k) (hb.noBlank t)).bind (Reads.peek.bind ?_)
  split
  · next h => cases h; exact absurd rfl h93
  · next h => cases h; exact absurd rfl h44
  · exact Reads.pure _
  · next h => cases h

theorem noBlank_of_not_blank {b : UInt8} (hb : ¬ Blank b) (t : List UInt8) : NoBlank (b :: t) := by
  intro b' hb'
  cases hb'
  exact hb

theorem Reads.nextItem_next {b : UInt8} {t : List UInt8} (hb : Opens b) (p : Bool) (k : Nat) :
    Reads src d (nextItem false) (44 :: (lead p k ++ b :: t)) (b :: t) true := by
  obtain ⟨_, _, h93, _⟩ := hb.not_blank
  rw [nextItem]
  refine (Reads.skipWs_none (noBlank_of_not_blank (by decide) _)).bind (Reads.peek.bind ?_)
  simp only [List.head?_cons]
  refine (Reads.bump_cons 44).bind ((Reads.skipWs (lead_blank p k) (hb.noBlank t)).bind
    (Reads.peek.bind ?_))
  split
  · next h => cases h; exact absurd rfl h93
  · exact Reads.pure _
  · next h => cases h

/-- The end of an array is met after the blanks before its bracket, which is left in place. -/
theorem Reads.nextItem_end (first : Bool) {bs : List UInt8} (hbs : ∀ b ∈ bs, Blank b)
    (t : List UInt8) : Reads src d (nextItem first) (bs ++ 93 :: t) (93 :: t) false := by
  rw [nextItem]
  refine (Reads.skipWs hbs (noBlank_of_not_blank (by decide) t)).bind (Reads.peek.bind ?_)
  exact Reads.pure _

theorem Reads.closeArray (t : List UInt8) : Reads src d closeArray (93 :: t) t () := by
  rw [Reader.closeArray]
  refine (Reads.skipWs_none (noBlank_of_not_blank (by decide) t)).bind (Reads.peek.bind ?_)
  exact Reads.bump_cons 93

theorem Reads.closeObject (t : List UInt8) : Reads src d closeObject (125 :: t) t () := by
  rw [Reader.closeObject]
  refine (Reads.skipWs_none (noBlank_of_not_blank (by decide) t)).bind (Reads.peek.bind ?_)
  exact Reads.bump_cons 125

theorem Reads.colon (t : List UInt8) : Reads src d colon (58 :: t) t () := by
  rw [Reader.colon]
  refine (Reads.skipWs_none (noBlank_of_not_blank (by decide) t)).bind (Reads.peek.bind ?_)
  exact Reads.bump_cons 58

theorem Reads.nextKey_first (key : String) (p : Bool) (k : Nat) (t : List UInt8) :
    Reads src d (nextKey true) (lead p k ++ (Json.quote key).toUTF8.toList ++ t) t (some key) := by
  rw [nextKey]
  simp only [quote_bytes, List.cons_append, List.append_assoc]
  refine (Reads.skipWs (lead_blank p k) (noBlank_of_not_blank (by decide) _)).bind
    (Reads.peek.bind ?_)
  refine (Reads.bump_cons 34).bind ?_
  have hkey : Reads src d Reader.string (key.toList.flatMap escapedBytes ++ 34 :: t) t key :=
    Reads.string key
  simpa using hkey.map (f := some)

theorem Reads.nextKey_next (key : String) (p : Bool) (k : Nat) (t : List UInt8) :
    Reads src d (nextKey false) (44 :: (lead p k ++ (Json.quote key).toUTF8.toList ++ t)) t (some key) := by
  rw [nextKey]
  simp only [quote_bytes, List.cons_append, List.append_assoc]
  refine (Reads.skipWs_none (noBlank_of_not_blank (by decide) _)).bind (Reads.peek.bind ?_)
  refine (Reads.bump_cons 44).bind ((Reads.skipWs (lead_blank p k)
    (noBlank_of_not_blank (by decide) _)).bind (Reads.peek.bind ?_))
  refine (Reads.bump_cons 34).bind ?_
  have hkey : Reads src d Reader.string (key.toList.flatMap escapedBytes ++ 34 :: t) t key :=
    Reads.string key
  simpa using hkey.map (f := some)

/-- The end of an object is met after the blanks before its brace, which is left in place. -/
theorem Reads.nextKey_end (first : Bool) {bs : List UInt8} (hbs : ∀ b ∈ bs, Blank b)
    (t : List UInt8) : Reads src d (nextKey first) (bs ++ 125 :: t) (125 :: t) none := by
  rw [nextKey]
  refine (Reads.skipWs hbs (noBlank_of_not_blank (by decide) t)).bind (Reads.peek.bind ?_)
  exact Reads.pure _

theorem Reads.nextKey_member (first : Bool) (p : Bool) (k : Nat) (key : String) (v : Json)
    (ms : List (String × Json)) (bs s : List UInt8) :
    Reads src d (nextKey first) (membersFrom p k first ((key, v) :: ms) ++ bs ++ 125 :: s)
      (58 :: (gap p ++ (spell p k v ++ (membersFrom p k false ms ++ bs ++ 125 :: s)))) (some key) := by
  rw [membersFrom_cons]
  cases first
  · simpa using Reads.nextKey_next key p k _
  · simpa using Reads.nextKey_first key p k _

end Containers

/-! ## Any value -/

section Values

variable {src : Source}

theorem bytesOf_ull : Reader.bytesOf "ull" = [117, 108, 108] := by
  rw [Reader.bytesOf, ByteArray.toList_eq_data]; rfl

theorem bytesOf_rue : Reader.bytesOf "rue" = [114, 117, 101] := by
  rw [Reader.bytesOf, ByteArray.toList_eq_data]; rfl

theorem bytesOf_alse : Reader.bytesOf "alse" = [97, 108, 115, 101] := by
  rw [Reader.bytesOf, ByteArray.toList_eq_data]; rfl

theorem DigitByte.cases {b : UInt8} (hb : DigitByte b) :
    b = 48 ∨ b = 49 ∨ b = 50 ∨ b = 51 ∨ b = 52 ∨ b = 53 ∨ b = 54 ∨ b = 55 ∨ b = 56 ∨ b = 57 := by
  obtain ⟨h48, h57⟩ := hb
  simp only [← UInt8.toNat_inj, UInt8.toNat_ofNat]
  omega

theorem Reads.value_scalar {v : Json} (hv : v.plain) (hscalar : nesting v = 0) (hw : 1 ≤ fuel)
    (p : Bool) (k d : Nat) {bs s : List UInt8} (hbs : ∀ b ∈ bs, Blank b) (hs : Ends s) :
    Reads src d (value fuel) (bs ++ (spell p k v ++ s)) s v := by
  obtain ⟨f, rfl⟩ : ∃ f, fuel = f + 1 := ⟨fuel - 1, by omega⟩
  obtain ⟨b, t, hspell, hopens⟩ := spell_opens hv p k
  rw [value]
  refine Reads.placeFaults ((Reads.skipWs hbs (by rw [hspell]; exact hopens.noBlank _)).bind
    (Reads.peek.bind ?_))
  match v with
  | .null =>
    rw [null_bytes]
    refine (Reads.bump_cons 110).bind ?_
    rw [bytesOf_ull]
    exact (Reads.ident [117, 108, 108]).bind (Reads.pure _)
  | .bool true =>
    rw [true_bytes]
    refine (Reads.bump_cons 116).bind ?_
    rw [bytesOf_rue]
    exact (Reads.ident [114, 117, 101]).bind (Reads.pure _)
  | .bool false =>
    rw [false_bytes]
    refine (Reads.bump_cons 102).bind ?_
    rw [bytesOf_alse]
    exact (Reads.ident [97, 108, 115, 101]).bind (Reads.pure _)
  | .str t =>
    rw [spell, quote_bytes]
    simp only [List.cons_append, List.append_assoc, List.head?_cons]
    exact (Reads.bump_cons 34).bind ((Reads.string t).map (f := Json.str))
  | .num (.nat n) =>
    have hn : n ≤ u64Max := by simpa [plain] using hv
    rw [nat_bytes] at hspell ⊢
    rw [hspell, List.cons_append, List.head?_cons]
    have hdigit : DigitByte b := digitBytes_digits n b (by rw [hspell]; exact List.mem_cons_self ..)
    rw [← List.cons_append, ← hspell]
    rcases hdigit.cases with rfl | rfl | rfl | rfl | rfl | rfl | rfl | rfl | rfl | rfl <;>
      exact (Reads.number_nat hn hs).bind (Reads.pure _)

theorem Reads.value_array {d f : Nat} {bs body s : List UInt8} {items : List Json}
    (hbs : ∀ b ∈ bs, Blank b) (hd : 2 ≤ d)
    (hitems : Reads src (d - 1) (Reader.items f true []) (body ++ 93 :: s) (93 :: s) items) :
    Reads src d (Reader.value (f + 1)) (bs ++ (91 :: (body ++ 93 :: s))) s (.arr items) := by
  rw [Reader.value]
  refine Reads.placeFaults ((Reads.skipWs hbs (noBlank_of_not_blank (by decide) _)).bind
    (Reads.peek.bind ?_))
  refine Reads.nested ?_ (by omega) (by omega)
  exact (Reads.bump_cons 91).bind (Reads.thenClose (hitems.bind (Reads.pure _)) (Reads.closeArray s))

theorem Reads.value_object {d f : Nat} {bs body s : List UInt8} {members : List (String × Json)}
    (hbs : ∀ b ∈ bs, Blank b) (hd : 2 ≤ d)
    (hmembers : Reads src (d - 1) (Reader.members f true []) (body ++ 125 :: s) (125 :: s) members) :
    Reads src d (Reader.value (f + 1)) (bs ++ (123 :: (body ++ 125 :: s))) s (.obj members) := by
  rw [Reader.value]
  refine Reads.placeFaults ((Reads.skipWs hbs (noBlank_of_not_blank (by decide) _)).bind
    (Reads.peek.bind ?_))
  refine Reads.nested ?_ (by omega) (by omega)
  exact (Reads.bump_cons 123).bind (Reads.thenClose (hmembers.bind (Reads.pure _))
    (Reads.closeObject s))

theorem spell_arr (p : Bool) (k : Nat) (items : List Json) (s : List UInt8) :
    spell p k (.arr items) ++ s =
      91 :: (itemsFrom p (k + 1) true items ++ (if items = [] then [] else lead p k) ++ 93 :: s) := by
  cases items with
  | nil => rw [spell]; rfl
  | cons v vs => simp [spell, itemsFrom_true]

theorem spell_obj (p : Bool) (k : Nat) (members : List (String × Json)) (s : List UInt8) :
    spell p k (.obj members) ++ s =
      123 :: (membersFrom p (k + 1) true members ++ (if members = [] then [] else lead p k) ++
        125 :: s) := by
  cases members with
  | nil => rw [spell]; rfl
  | cons m ms => simp [spell, membersFrom_true]

theorem closing_blank (p : Bool) (k : Nat) (c : Prop) [Decidable c] :
    ∀ b ∈ (if c then [] else lead p k), Blank b := by
  split
  · simp
  · exact lead_blank p k

mutual
/-- Any plain value of the layout is read back as itself, blanks before it skipped, given fuel
for its weight and budget above its nesting. -/
theorem Reads.value : ∀ (v : Json), v.plain → ∀ (p : Bool) (k fuel d : Nat) (bs s : List UInt8),
    (∀ b ∈ bs, Blank b) → weight v ≤ fuel → nesting v < d → Ends s →
    Reads src d (Reader.value fuel) (bs ++ (spell p k v ++ s)) s v
  | .arr items, hv, p, k, fuel, d, bs, s, hbs, hw, hd, _ => by
    obtain ⟨f, rfl⟩ : ∃ f, fuel = f + 1 := ⟨fuel - 1, by simp [weight] at hw; omega⟩
    simp only [weight, nesting] at hw hd
    have hitems := Reads.items items (by simpa [plain] using hv) p (k + 1) f (d - 1) true []
      s (closing_blank p k (items = [])) (by omega) (by omega)
    rw [spell_arr]
    exact Reads.value_array hbs (by omega) (by simpa using hitems)
  | .obj members, hv, p, k, fuel, d, bs, s, hbs, hw, hd, _ => by
    obtain ⟨f, rfl⟩ : ∃ f, fuel = f + 1 := ⟨fuel - 1, by simp [weight] at hw; omega⟩
    simp only [weight, nesting] at hw hd
    have hmembers := Reads.members members (by simpa [plain] using hv) p (k + 1) f (d - 1) true []
      s (closing_blank p k (members = [])) (by omega) (by omega)
    rw [spell_obj]
    exact Reads.value_object hbs (by omega) (by simpa using hmembers)
  | .null, hv, p, k, _, d, _, _, hbs, hw, _, hs => Reads.value_scalar hv rfl hw p k d hbs hs
  | .bool _, hv, p, k, _, d, _, _, hbs, hw, _, hs => Reads.value_scalar hv rfl hw p k d hbs hs
  | .num _, hv, p, k, _, d, _, _, hbs, hw, _, hs => Reads.value_scalar hv rfl hw p k d hbs hs
  | .str _, hv, p, k, _, d, _, _, hbs, hw, _, hs => Reads.value_scalar hv rfl hw p k d hbs hs

/-- The items of an array from where the reader stands, up to the blanks before its bracket. -/
theorem Reads.items : ∀ (vs : List Json), plainItems vs = true → ∀ (p : Bool) (k fuel d : Nat)
    (first : Bool) (acc : List Json) {bs : List UInt8} (s : List UInt8), (∀ b ∈ bs, Blank b) →
    weightItems vs ≤ fuel → nestingItems vs < d →
    Reads src d (Reader.items fuel first acc) (itemsFrom p k first vs ++ bs ++ 93 :: s) (93 :: s)
      (acc.reverse ++ vs)
  | [], _, p, k, fuel, d, first, acc, bs, s, hbs, hw, _ => by
    obtain ⟨f, rfl⟩ : ∃ f, fuel = f + 1 := ⟨fuel - 1, by simp [weightItems] at hw; omega⟩
    rw [Reader.items]
    refine (Reads.nextItem_end first hbs s).bind ?_
    simpa using Reads.pure _
  | v :: vs, hv, p, k, fuel, d, first, acc, bs, s, hbs, hw, hd => by
    obtain ⟨f, rfl⟩ : ∃ f, fuel = f + 1 := ⟨fuel - 1, by simp [weightItems] at hw; omega⟩
    simp only [plainItems, Bool.and_eq_true] at hv
    simp only [weightItems, nestingItems] at hw hd
    obtain ⟨b, t, hspell, hopens⟩ := spell_opens hv.1 p k
    have hvalue := Reads.value v hv.1 p k f d [] (itemsFrom p k false vs ++ bs ++ 93 :: s)
      (by simp) (by omega) (by omega) (ends_itemsFrom p k vs hbs 93 (Or.inl rfl) s)
    have hrest := Reads.items vs hv.2 p k f d false (v :: acc) s hbs (by omega) (by omega)
    rw [itemsFrom_cons, Reader.items]
    have hnext : Reads src d (nextItem first)
        ((if first = true then [] else [44]) ++ (lead p k ++ spell p k v ++ itemsFrom p k false vs) ++
          bs ++ 93 :: s) (spell p k v ++ (itemsFrom p k false vs ++ bs ++ 93 :: s)) true := by
      rw [hspell]
      cases first
      · simpa using Reads.nextItem_next hopens p k
      · simpa using Reads.nextItem_first hopens p k
    refine hnext.bind ?_
    simp only [if_true]
    exact (by simpa using hvalue : Reads src d (Reader.value f) _ _ v).bind (by simpa using hrest)

/-- The members of an object from where the reader stands, up to the blanks before its brace. -/
theorem Reads.members : ∀ (ms : List (String × Json)), plainMembers ms = true →
    ∀ (p : Bool) (k fuel d : Nat) (first : Bool) (acc : List (String × Json)) {bs : List UInt8}
    (s : List UInt8), (∀ b ∈ bs, Blank b) → weightMembers ms ≤ fuel → nestingMembers ms < d →
    Reads src d (Reader.members fuel first acc) (membersFrom p k first ms ++ bs ++ 125 :: s)
      (125 :: s) (acc.reverse ++ ms)
  | [], _, p, k, fuel, d, first, acc, bs, s, hbs, hw, _ => by
    obtain ⟨f, rfl⟩ : ∃ f, fuel = f + 1 := ⟨fuel - 1, by simp [weightMembers] at hw; omega⟩
    rw [Reader.members]
    refine (Reads.nextKey_end first hbs s).bind ?_
    simpa using Reads.pure _
  | (key, v) :: ms, hv, p, k, fuel, d, first, acc, bs, s, hbs, hw, hd => by
    obtain ⟨f, rfl⟩ : ∃ f, fuel = f + 1 := ⟨fuel - 1, by simp [weightMembers] at hw; omega⟩
    simp only [plainMembers, Bool.and_eq_true] at hv
    simp only [weightMembers, nestingMembers] at hw hd
    have hvalue := Reads.value v hv.1 p k f d (gap p) (membersFrom p k false ms ++ bs ++ 125 :: s)
      (gap_blank p) (by omega) (by omega) (ends_membersFrom p k ms hbs 125 (Or.inr rfl) s)
    have hrest := Reads.members ms hv.2 p k f d false ((key, v) :: acc) s hbs (by omega) (by omega)
    rw [Reader.members]
    refine (Reads.nextKey_member first p k key v ms bs s).bind ?_
    exact (Reads.colon _).bind (hvalue.bind (by simpa using hrest))
end

/-- Any plain value, with the fuel the reader gives itself from what is left to read. -/
theorem Reads.anyValue {v : Json} (hv : v.plain) (p : Bool) (k : Nat) {d : Nat} (hd : nesting v < d)
    {bs s : List UInt8} (hbs : ∀ b ∈ bs, Blank b) (hs : Ends s) :
    Reads src d Reader.anyValue (bs ++ (spell p k v ++ s)) s v := by
  have hw := weight_lt_length v hv p k
  rw [Reader.anyValue]
  refine Reads.get_bind fun _ _ => ?_
  exact Reads.value v hv p k _ d bs s hbs (by simp only [List.length_append]; omega) hd hs

end Values

end RunJournal.Json

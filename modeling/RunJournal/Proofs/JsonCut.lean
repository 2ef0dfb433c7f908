import RunJournal.Proofs.JsonDecode
/-!
# JSON text cut short

A reader that succeeds has taken a piece of its input, and the brackets in that piece bound what it
can be. `Scan` follows the nesting of brackets byte by byte, stepping into and out of string
literals and over their escapes. Compact text of an object stays nested from its first byte to its
last (`Balanced.obj_nested`), while on success every reader of values and records takes a piece
over which the scan goes from one given state to another (`Walks`): a whole value leaves the
nesting as it found it, the body of a string goes from inside the literal to after it. So no strict
prefix of an object's compact text, with blanks after it, reads as a record: the record would have
to end where the nesting closes (`flatRecord_cut_fails`).
-/

namespace RunJournal.Json

/-- Where a scan of JSON text stands: outside string literals with `k` brackets open, inside a
literal, or inside a literal right after a backslash. -/
inductive Scan where
  | out (k : Nat)
  | lit (k : Nat)
  | esc (k : Nat)
  deriving DecidableEq

namespace Scan

def depth : Scan → Nat
  | out k | lit k | esc k => k

def step : Scan → UInt8 → Scan
  | out k, b =>
    if b = 34 then lit k
    else if b = 123 ∨ b = 91 then out (k + 1)
    else if b = 125 ∨ b = 93 then out (k - 1)
    else out k
  | lit k, b => if b = 34 then out k else if b = 92 then esc k else lit k
  | esc k, _ => lit k

/-- The scan after the bytes `bs`. -/
def run (s : Scan) (bs : List UInt8) : Scan := bs.foldl step s

@[simp] theorem run_nil (s : Scan) : s.run [] = s := rfl

@[simp] theorem run_cons (s : Scan) (b : UInt8) (bs : List UInt8) :
    s.run (b :: bs) = (s.step b).run bs := rfl

theorem run_append (s : Scan) (a b : List UInt8) : s.run (a ++ b) = (s.run a).run b :=
  List.foldl_append ..

end Scan

open Scan

theorem step_lit_plain {b : UInt8} (h34 : b ≠ 34) (h92 : b ≠ 92) (k : Nat) : (lit k).step b = lit k := by
  simp [step, h34, h92]

/-- A byte that changes nothing outside a literal: neither a quote nor a bracket. -/
def Quiet (b : UInt8) : Prop := b ≠ 34 ∧ b ≠ 123 ∧ b ≠ 91 ∧ b ≠ 125 ∧ b ≠ 93

instance : DecidablePred Quiet := fun b =>
  inferInstanceAs (Decidable (b ≠ 34 ∧ b ≠ 123 ∧ b ≠ 91 ∧ b ≠ 125 ∧ b ≠ 93))

theorem step_out_quiet {b : UInt8} (h : Quiet b) (k : Nat) : (out k).step b = out k := by
  obtain ⟨h34, h123, h91, h125, h93⟩ := h
  simp [step, h34, h123, h91, h125, h93]

theorem run_out_quiet {bs : List UInt8} (h : ∀ b ∈ bs, Quiet b) (k : Nat) : (out k).run bs = out k := by
  induction bs with
  | nil => rfl
  | cons b bs ih =>
    rw [run_cons, step_out_quiet (h b (List.mem_cons_self ..))]
    exact ih fun b hb => h b (List.mem_cons_of_mem _ hb)

theorem Blank.quiet {b : UInt8} (h : Blank b) : Quiet b := by
  rcases h with rfl | rfl | rfl | rfl <;> decide

theorem DigitByte.quiet {b : UInt8} (h : DigitByte b) : Quiet b := by
  obtain ⟨hlo, hhi⟩ := h
  simp only [Quiet, ne_eq, ← UInt8.toNat_inj, UInt8.toNat_ofNat]
  omega

/-! ## Text that stays nested -/

section Writing

/-- Bytes that keep a scan inside a literal: characters other than the quote and the backslash, and
escapes of two bytes. -/
inductive Escaped : List UInt8 → Prop
  | nil : Escaped []
  | plain {b : UInt8} {bs : List UInt8} : b ≠ 34 → b ≠ 92 → Escaped bs → Escaped (b :: bs)
  | pair (x : UInt8) {bs : List UInt8} : Escaped bs → Escaped (92 :: x :: bs)

theorem Escaped.append {a b : List UInt8} (ha : Escaped a) (hb : Escaped b) : Escaped (a ++ b) := by
  induction ha with
  | nil => exact hb
  | plain h34 h92 _ ih => exact .plain h34 h92 ih
  | pair x _ ih => exact .pair x ih

theorem Escaped.of_plain {bs : List UInt8} (h : ∀ b ∈ bs, b ≠ 34 ∧ b ≠ 92) : Escaped bs := by
  induction bs with
  | nil => exact .nil
  | cons b bs ih =>
    obtain ⟨h34, h92⟩ := h b (List.mem_cons_self ..)
    exact .plain h34 h92 (ih fun b hb => h b (List.mem_cons_of_mem _ hb))

theorem hexByte_plain : ∀ x : Fin 16, hexByte x.val ≠ 34 ∧ hexByte x.val ≠ 92 := by decide

theorem escapedBytes_escaped (c : Char) : Escaped (escapedBytes c) := by
  by_cases hq : c = '"'
  · rw [hq, escapedBytes_quote]; exact .pair _ .nil
  by_cases hb : c = '\\'
  · rw [hb, escapedBytes_backslash]; exact .pair _ .nil
  by_cases hctl : 0x20 ≤ c.toNat
  · obtain ⟨heq, hplain⟩ := escapedBytes_plain hq hb hctl
    rw [heq]
    exact .of_plain fun b hb => ⟨(hplain b hb).2.1, (hplain b hb).2.2⟩
  by_cases hnl : c = '\n'
  · rw [hnl, escapedBytes_newline]; exact .pair _ .nil
  by_cases hcr : c = '\r'
  · rw [hcr, escapedBytes_return]; exact .pair _ .nil
  by_cases htab : c = '\t'
  · rw [htab, escapedBytes_tab]; exact .pair _ .nil
  by_cases h8 : c.toNat = 8
  · rw [ascii_eq_of_toNat h8, escapedBytes_backspace]; exact .pair _ .nil
  by_cases h12 : c.toNat = 12
  · rw [ascii_eq_of_toNat h12, escapedBytes_formfeed]; exact .pair _ .nil
  rw [escapedBytes_hex (by omega) hnl hcr htab h8 h12]
  have hhi := hexByte_plain ⟨c.toNat / 16, by omega⟩
  have hlo := hexByte_plain ⟨c.toNat % 16, by omega⟩
  exact .pair _ (.plain (by decide) (by decide) (.plain (by decide) (by decide)
    (.plain hhi.1 hhi.2 (.plain hlo.1 hlo.2 .nil))))

/-- Every prefix of `bs` leaves a scan from `s` with at least `k` brackets open. -/
def Above (k : Nat) (s : Scan) (bs : List UInt8) : Prop := ∀ q, q <+: bs → k ≤ (s.run q).depth

theorem prefix_append_cases {q a b : List UInt8} (h : q <+: a ++ b) :
    q <+: a ∨ ∃ q', q = a ++ q' ∧ q' <+: b := by
  obtain ⟨t, ht⟩ := h
  rcases List.append_eq_append_iff.mp ht with ⟨a', rfl, -⟩ | ⟨c', rfl, rfl⟩
  · exact .inl (List.prefix_append q a')
  · exact .inr ⟨c', rfl, List.prefix_append c' t⟩

theorem Above.nil {k : Nat} {s : Scan} (h : k ≤ s.depth) : Above k s [] := by
  intro q hq
  rw [List.prefix_nil.mp hq]
  exact h

theorem Above.append {k : Nat} {s : Scan} {a b : List UInt8} (ha : Above k s a)
    (hb : Above k (s.run a) b) : Above k s (a ++ b) := by
  intro q hq
  rcases prefix_append_cases hq with hq | ⟨q', rfl, hq'⟩
  · exact ha q hq
  · rw [run_append]
    exact hb q' hq'

theorem Above.cons {k : Nat} {s : Scan} {b : UInt8} {bs : List UInt8} (hs : k ≤ s.depth)
    (h : Above k (s.step b) bs) : Above k s (b :: bs) := by
  intro q hq
  rcases List.prefix_cons_iff.mp hq with rfl | ⟨t, rfl, ht⟩
  · exact hs
  · exact h t ht

theorem Above.mono {k k' : Nat} {s : Scan} {bs : List UInt8} (h : Above k s bs) (hk : k' ≤ k) :
    Above k' s bs :=
  fun q hq => Nat.le_trans hk (h q hq)

theorem Escaped.run_above {bs : List UInt8} (h : Escaped bs) (k : Nat) :
    (lit k).run bs = lit k ∧ Above k (lit k) bs := by
  induction h with
  | nil => exact ⟨rfl, .nil (Nat.le_refl k)⟩
  | @plain b _ h34 h92 _ ih =>
    have hstep := step_lit_plain h34 h92 k
    exact ⟨by rw [run_cons, hstep, ih.1], .cons (Nat.le_refl k) (by rw [hstep]; exact ih.2)⟩
  | pair x _ ih =>
    have hstep : ((lit k).step 92).step x = lit k := rfl
    refine ⟨by rw [run_cons, run_cons, hstep, ih.1], .cons (Nat.le_refl k) (.cons (Nat.le_refl k) ?_)⟩
    rw [hstep]
    exact ih.2

/-- Text that a scan outside any literal, with `k` brackets open, crosses without closing more than
it opens: it ends where it started and never goes below `k`. -/
structure Balanced (k : Nat) (bs : List UInt8) : Prop where
  run : (out k).run bs = out k
  above : Above k (out k) bs

theorem Balanced.nil (k : Nat) : Balanced k [] := ⟨rfl, .nil (Nat.le_refl k)⟩

theorem Balanced.append {k : Nat} {a b : List UInt8} (ha : Balanced k a) (hb : Balanced k b) :
    Balanced k (a ++ b) :=
  ⟨by rw [run_append, ha.run, hb.run], ha.above.append (by rw [ha.run]; exact hb.above)⟩

theorem Balanced.of_quiet {bs : List UInt8} (h : ∀ b ∈ bs, Quiet b) (k : Nat) : Balanced k bs := by
  refine ⟨run_out_quiet h k, fun q hq => ?_⟩
  rw [run_out_quiet (fun b hb => h b (hq.subset hb)) k]
  exact Nat.le_refl k

theorem Escaped.flatMap (cs : List Char) : Escaped (cs.flatMap escapedBytes) := by
  induction cs with
  | nil => exact .nil
  | cons c cs ih =>
    rw [List.flatMap_cons]
    exact (escapedBytes_escaped c).append ih

theorem quote_balanced (s : String) (k : Nat) : Balanced k (quote s).toUTF8.toList := by
  obtain ⟨hrun, habove⟩ := (Escaped.flatMap s.toList).run_above k
  have hopen : (out k).step 34 = lit k := rfl
  rw [quote_bytes]
  refine ⟨?_, .cons (Nat.le_refl k) ?_⟩
  · rw [run_append, run_cons (out k), hopen, hrun]
    rfl
  · rw [hopen]
    refine habove.append ?_
    rw [hrun]
    exact .cons (Nat.le_refl k) (.nil (Nat.le_refl k))

theorem Balanced.cons_quiet {bs : List UInt8} {k : Nat} (h : Balanced k bs) (b : UInt8)
    (hb : Quiet b) : Balanced k (b :: bs) :=
  (Balanced.of_quiet (fun _ hx => (List.mem_singleton.mp hx) ▸ hb) k).append h

/-- A bracket opened and closed around text balanced one level in. -/
theorem Balanced.wrap {k : Nat} {o c : UInt8} {inner : List UInt8} (h : Balanced (k + 1) inner)
    (ho : (out k).step o = out (k + 1)) (hc : (out (k + 1)).step c = out k) :
    Balanced k (o :: inner ++ [c]) := by
  refine ⟨by rw [List.cons_append, run_cons, ho, run_append, h.run, run_cons, hc, run_nil], ?_⟩
  rw [List.cons_append]
  refine .cons (Nat.le_refl k) ?_
  rw [ho]
  refine (h.above.mono (Nat.le_succ k)).append ?_
  rw [h.run]
  refine .cons (Nat.le_succ k) ?_
  rw [hc]
  exact .nil (Nat.le_refl k)

mutual
theorem spell_balanced : ∀ (v : Json), v.plain → ∀ (d k : Nat), Balanced k (spell false d v)
  | .null, _, d, k => by rw [null_bytes]; exact .of_quiet (by decide +kernel) k
  | .bool true, _, d, k => by rw [true_bytes]; exact .of_quiet (by decide +kernel) k
  | .bool false, _, d, k => by rw [false_bytes]; exact .of_quiet (by decide +kernel) k
  | .num (.nat n), _, d, k => by
    rw [nat_bytes]
    exact .of_quiet (fun b hb => (digitBytes_digits n b hb).quiet) k
  | .num (.neg _), hv, _, _ | .num (.float _), hv, _, _ => by simp [plain] at hv
  | .str s, _, d, k => by rw [spell]; exact quote_balanced s k
  | .arr [], _, d, k => (Balanced.nil (k + 1)).wrap rfl rfl
  | .arr (w :: ws), hv, d, k => by
    have h := spellItems_balanced (w :: ws) (by simpa [plain] using hv) (d + 1) (k + 1)
    simp only [spell, lead, Bool.false_eq_true, if_false, List.append_nil]
    exact h.wrap rfl rfl
  | .obj [], _, d, k => (Balanced.nil (k + 1)).wrap rfl rfl
  | .obj (m :: ms), hv, d, k => by
    have h := spellMembers_balanced (m :: ms) (by simpa [plain] using hv) (d + 1) (k + 1)
    simp only [spell, lead, Bool.false_eq_true, if_false, List.append_nil]
    exact h.wrap rfl rfl

theorem spellItems_balanced : ∀ (vs : List Json), plainItems vs → ∀ (d k : Nat),
    Balanced k (spellItems false d vs)
  | [], _, d, k => .nil k
  | [v], hv, d, k => by
    simpa [spellItems, lead] using spell_balanced v (by simp_all [plainItems]) d k
  | v :: w :: ws, hv, d, k => by
    simp only [plainItems, Bool.and_eq_true] at hv
    have h := spell_balanced v hv.1 d k
    have hrest := spellItems_balanced (w :: ws) (by simpa [plainItems] using hv.2) d k
    simp only [spellItems, lead, Bool.false_eq_true, if_false, List.nil_append]
    exact h.append (hrest.cons_quiet 44 (by decide))

theorem spellMembers_balanced : ∀ (ms : List (String × Json)), plainMembers ms → ∀ (d k : Nat),
    Balanced k (spellMembers false d ms)
  | [], _, d, k => .nil k
  | [(key, v)], hv, d, k => by
    have h := spell_balanced v (by simp_all [plainMembers]) d k
    simp only [spellMembers, lead, gap, Bool.false_eq_true, if_false, List.nil_append,
      List.append_assoc, List.cons_append]
    exact (quote_balanced key k).append (h.cons_quiet 58 (by decide))
  | (key, v) :: m :: ms, hv, d, k => by
    simp only [plainMembers, Bool.and_eq_true] at hv
    have h := spell_balanced v hv.1 d k
    have hrest := spellMembers_balanced (m :: ms) (by simpa [plainMembers] using hv.2) d k
    simp only [spellMembers, lead, gap, Bool.false_eq_true, if_false, List.nil_append,
      List.append_assoc, List.cons_append]
    exact (quote_balanced key k).append ((h.append (hrest.cons_quiet 44 (by decide))).cons_quiet 58
      (by decide))
end

/-- A nonempty strict prefix of an object's compact text leaves one more bracket open than before
it. -/
theorem Balanced.obj_nested {m : String × Json} {ms : List (String × Json)}
    (hv : (Json.obj (m :: ms)).plain) {d k : Nat} {q : List UInt8}
    (hq : q <+: spell false d (.obj (m :: ms))) (hne : q ≠ [])
    (hstrict : q ≠ spell false d (.obj (m :: ms))) : k + 1 ≤ ((out k).run q).depth := by
  have hinner := spellMembers_balanced (m :: ms) (by simpa [plain] using hv) (d + 1) (k + 1)
  have hspell : spell false d (.obj (m :: ms)) = 123 :: spellMembers false (d + 1) (m :: ms) ++ [125] := by
    simp [spell, lead]
  rw [hspell] at hq hstrict
  rcases List.prefix_concat_iff.mp hq with heq | hq
  · exact absurd heq hstrict
  rcases List.prefix_cons_iff.mp hq with rfl | ⟨t, rfl, ht⟩
  · exact absurd rfl hne
  · exact hinner.above t ht

end Writing

/-! ## What a reader takes -/

section Reading

open Reader

variable {α β : Type}

/-- Whenever `r` succeeds from a cursor whose bytes satisfy `P`, the bytes it took carry a scan
from `s` to `t`. -/
def WalksOn (P : List UInt8 → Prop) (r : Reader α) (s t : Scan) : Prop :=
  ∀ c a c', P c.rest → r.run.run c = (.ok a, c') → ∃ pre, c.rest = pre ++ c'.rest ∧ s.run pre = t

/-- Whenever `r` succeeds, the bytes it took carry a scan from `s` to `t`. -/
abbrev Walks (r : Reader α) (s t : Scan) : Prop := WalksOn (fun _ => True) r s t

/-- `r` never succeeds. -/
def Fails (r : Reader α) : Prop := ∀ c a c', r.run.run c ≠ (.ok a, c')

theorem bind_run_ok {r : Reader α} {f : α → Reader β} {c c' : Cursor} {b : β}
    (h : (r >>= f).run.run c = (.ok b, c')) :
    ∃ a c₁, r.run.run c = (.ok a, c₁) ∧ (f a).run.run c₁ = (.ok b, c') := by
  rw [run_bind] at h
  rcases hr : r.run.run c with ⟨_ | a, c₁⟩ <;> simp only [hr] at h
  · cases h
  · exact ⟨a, c₁, rfl, h⟩

theorem tryCatch_run (r : Reader α) (h : Fault → Reader α) (c : Cursor) :
    (tryCatch r h).run.run c = match r.run.run c with
      | (.ok a, c') => (.ok a, c')
      | (.error e, c') => (h e).run.run c' := by
  show (ExceptT.tryCatch r h).run.run c = _
  simp only [ExceptT.tryCatch, ExceptT.run_mk, StateT.run_bind]
  have hrun : StateT.run r c = r.run.run c := rfl
  rw [hrun]
  rcases r.run.run c with ⟨_ | _, c'⟩ <;> rfl

theorem peek_run (c : Cursor) : Reader.peek.run.run c = (.ok c.rest.head?, c) := rfl

theorem Cursor.rest_bump {c : Cursor} {b : UInt8} {l : List UInt8} (h : c.rest = b :: l) :
    c.bump.rest = l := by
  unfold Cursor.bump
  simp only [h]
  split <;> rfl

theorem Cursor.bump_of_nil {c : Cursor} (h : c.rest = []) : c.bump = c := by
  unfold Cursor.bump
  rw [h]

section Fails

variable {r : Reader α} {f : α → Reader β}

theorem Fails.walksOn {P : List UInt8 → Prop} {s t : Scan} (h : Fails r) : WalksOn P r s t :=
  fun c a c' _ hrun => absurd hrun (h c a c')

theorem fails_throw (e : Fault) : Fails (throw e : Reader α) := fun _ _ _ h => by cases h

theorem Fails.bind_left (h : Fails r) : Fails (r >>= f) := fun c b c' hrun => by
  obtain ⟨a, c₁, h₁, -⟩ := bind_run_ok hrun
  exact h c a c₁ h₁

theorem Fails.bind_right (h : ∀ a, Fails (f a)) : Fails (r >>= f) := fun c b c' hrun => by
  obtain ⟨a, c₁, -, h₂⟩ := bind_run_ok hrun
  exact h a c₁ b c' h₂

theorem fails_fail (msg : String) : Fails (fail msg : Reader α) :=
  Fails.bind_right fun _ => fails_throw _

theorem fails_failAhead (msg : String) : Fails (failAhead msg : Reader α) :=
  Fails.bind_right fun _ => fails_throw _

theorem fails_failBare (msg : String) : Fails (failBare msg : Reader α) := fails_throw _

theorem placeFaults_ok {c c' : Cursor} {a : α} (h : (placeFaults r).run.run c = (.ok a, c')) :
    r.run.run c = (.ok a, c') := by
  unfold placeFaults at h
  rw [tryCatch_run] at h
  rcases hr : r.run.run c with ⟨_ | a', c₁⟩ <;> simp only [hr] at h
  · split at h
    · exact absurd h (fails_throw _ _ _ _)
    · exact absurd h ((Fails.bind_right fun _ => fails_throw _) _ _ _)
  · exact h

theorem Fails.placeFaults (h : Fails r) : Fails (placeFaults r) :=
  fun c a c' hrun => h c a c' (placeFaults_ok hrun)

end Fails

section Walking

variable {P Q : List UInt8 → Prop} {s t u : Scan} {r : Reader α} {f : α → Reader β}

theorem WalksOn.pure (a : α) : WalksOn P (Pure.pure a : Reader α) s s := by
  intro c a' c' _ h
  cases h
  exact ⟨[], rfl, rfl⟩

theorem WalksOn.mono (h : WalksOn P r s t) (hQ : ∀ l, Q l → P l) : WalksOn Q r s t :=
  fun c a c' hq hrun => h c a c' (hQ _ hq) hrun

theorem WalksOn.bind (hr : WalksOn P r s t) (hf : ∀ a, Walks (f a) t u) : WalksOn P (r >>= f) s u := by
  intro c b c' hP hrun
  obtain ⟨a, c₁, h₁, h₂⟩ := bind_run_ok hrun
  obtain ⟨pre₁, hc₁, hs₁⟩ := hr c a c₁ hP h₁
  obtain ⟨pre₂, hc₂, hs₂⟩ := hf a c₁ b c' trivial h₂
  exact ⟨pre₁ ++ pre₂, by rw [hc₁, hc₂, List.append_assoc], by rw [run_append, hs₁, hs₂]⟩

theorem WalksOn.peek_bind {f : Option UInt8 → Reader α}
    (hf : ∀ o, WalksOn (fun l => P l ∧ l.head? = o) (f o) s t) : WalksOn P (peek >>= f) s t := by
  intro c a c' hP hrun
  rw [run_bind, peek_run] at hrun
  exact hf _ c a c' ⟨hP, rfl⟩ hrun

theorem WalksOn.get_bind {f : Cursor → Reader α}
    (hf : ∀ c₀, WalksOn (fun l => P l ∧ l = c₀.rest) (f c₀) s t) : WalksOn P (get >>= f) s t := by
  intro c a c' hP hrun
  rw [run_bind, get_run] at hrun
  exact hf c c a c' ⟨hP, rfl⟩ hrun

/-- A bump takes the byte ahead, known from what was looked at before. -/
theorem WalksOn.bump_bind {f : Unit → Reader α} {b : UInt8} (hP : ∀ l, P l → ∃ l', l = b :: l' ∧ Q l')
    (hf : WalksOn Q (f ()) (s.step b) t) : WalksOn P (bump >>= f) s t := by
  intro c a c' hp hrun
  obtain ⟨l', hl, hq⟩ := hP _ hp
  rw [run_bind, bump_run] at hrun
  have hrest := Cursor.rest_bump hl
  obtain ⟨pre, hpre, hs⟩ := hf c.bump a c' (hrest ▸ hq) hrun
  exact ⟨b :: pre, by rw [hl, ← hrest, hpre]; rfl, by rw [run_cons, hs]⟩

theorem walksOn_bump {b : UInt8} (hP : ∀ l, P l → l.head? = some b) :
    WalksOn P bump s (s.step b) := by
  intro c a c' hp hrun
  rw [bump_run] at hrun
  cases hrun
  obtain ⟨l', hl⟩ : ∃ l', c.rest = b :: l' := by
    have := hP _ hp
    cases hc : c.rest with
    | nil => rw [hc] at this; cases this
    | cons x l' => rw [hc] at this; cases this; exact ⟨l', rfl⟩
  exact ⟨[b], by rw [hl, Cursor.rest_bump hl]; rfl, rfl⟩

/-- A bump over a byte that leaves the scan where it was, or over nothing. -/
theorem WalksOn.bump_quiet {f : Unit → Reader α} (hP : ∀ l, P l → ∀ b ∈ l.head?, s.step b = s)
    (hf : Walks (f ()) s t) : WalksOn P (bump >>= f) s t := by
  intro c a c' hp hrun
  rw [run_bind, bump_run] at hrun
  obtain ⟨pre, hpre, hs⟩ := hf c.bump a c' trivial hrun
  cases hc : c.rest with
  | nil =>
    rw [Cursor.bump_of_nil hc, hc] at hpre
    exact ⟨pre, hpre, hs⟩
  | cons b l =>
    have hstep := hP _ hp b (by simp [hc])
    rw [Cursor.rest_bump hc] at hpre
    exact ⟨b :: pre, by rw [hpre]; rfl, by rw [run_cons, hstep, hs]⟩

theorem WalksOn.placeFaults (h : WalksOn P r s t) : WalksOn P (placeFaults r) s t :=
  fun c a c' hp hrun => h c a c' hp (placeFaults_ok hrun)

theorem WalksOn.bump_seen {f : Unit → Reader α} {b : UInt8} (hP : ∀ l, P l → l.head? = some b)
    (hf : Walks (f ()) (s.step b) t) : WalksOn P (bump >>= f) s t :=
  WalksOn.bump_bind (fun l hl => (List.head?_eq_some_iff.mp (hP l hl)).imp fun _ h => ⟨h, trivial⟩) hf

theorem WalksOn.next_bind {f : Option UInt8 → Reader α} (hsome : ∀ b, Walks (f (some b)) (s.step b) t)
    (hnone : Walks (f none) s t) : WalksOn P (next >>= f) s t := by
  have hnext : next >>= f = peek >>= fun o => bump >>= fun _ => f o := by
    simp only [Reader.next, bind_assoc, pure_bind]
  rw [hnext]
  refine WalksOn.peek_bind fun o => ?_
  cases o with
  | none => exact WalksOn.bump_quiet (fun l hl b hb => by simp [hl.2] at hb) hnone
  | some b => exact WalksOn.bump_seen (fun l hl => hl.2) (hsome b)

theorem WalksOn.source_bind {f : Source → Reader α} (hf : ∀ src, WalksOn P (f src) s t) :
    WalksOn P (source >>= f) s t := by
  intro c a c' hp hrun
  rw [run_bind] at hrun
  exact hf c.source c a c' hp hrun

theorem WalksOn.nested (h : WalksOn P r s t) : WalksOn P (nested r) s t := by
  intro c a c' hp hrun
  unfold Reader.nested at hrun
  obtain ⟨c₀, c₁, hget, hrest⟩ := bind_run_ok hrun
  rw [get_run] at hget
  cases hget
  split at hrest
  · exact absurd hrest (fails_failAhead _ _ _ _)
  · obtain ⟨u, c₂, hset, hrest⟩ := bind_run_ok hrest
    rw [set_run] at hset
    cases hset
    obtain ⟨a₁, c₃, hr, hmod⟩ := bind_run_ok hrest
    obtain ⟨u', c₄, hm, hpure⟩ := bind_run_ok hmod
    rw [modify_run] at hm
    cases hm
    cases hpure
    exact h { c with depth := c.depth - 1 } _ c₃ hp hr

theorem attempt_run (r : Reader α) (c : Cursor) :
    (attempt r).run.run c = match r.run.run c with
      | (.ok a, c') => (.ok (.ok a), c')
      | (.error e, c') => (.ok (.error e), c') := by
  unfold attempt
  rw [tryCatch_run, map_eq_pure_bind, run_bind]
  rcases r.run.run c with ⟨_ | _, c'⟩ <;> rfl

theorem WalksOn.thenClose {body : Reader α} {close : Reader Unit} (hb : WalksOn P body s t)
    (hc : Walks close t u) : WalksOn P (thenClose body close) s u := by
  intro c a c' hp hrun
  unfold Reader.thenClose at hrun
  obtain ⟨x, c₁, h₁, hrest⟩ := bind_run_ok hrun
  obtain ⟨y, c₂, h₂, h₃⟩ := bind_run_ok hrest
  rw [attempt_run] at h₁ h₂
  rcases hbody : body.run.run c with ⟨_ | a₁, c₁'⟩
  · rw [hbody] at h₁
    cases h₁
    exact absurd h₃ (fails_throw _ _ _ _)
  rw [hbody] at h₁
  cases h₁
  rcases hclose : close.run.run c₁ with ⟨_ | u₁, c₂'⟩
  · rw [hclose] at h₂
    cases h₂
    exact absurd h₃ (fails_throw _ _ _ _)
  rw [hclose] at h₂
  cases h₂
  cases h₃
  obtain ⟨pre₁, hc₁, hs₁⟩ := hb c _ c₁ hp hbody
  obtain ⟨pre₂, hc₂, hs₂⟩ := hc c₁ () c' trivial hclose
  exact ⟨pre₁ ++ pre₂, by rw [hc₁, hc₂, List.append_assoc], by rw [run_append, hs₁, hs₂]⟩

theorem skipBlanks_split (l : List UInt8) (line column : Nat) :
    ∃ pre, l = pre ++ (skipBlanks l line column).1 ∧ ∀ b ∈ pre, Blank b := by
  induction l generalizing line column with
  | nil => exact ⟨[], rfl, fun _ h => absurd h List.not_mem_nil⟩
  | cons b l ih =>
    rw [skipBlanks]
    split
    · next hb =>
      obtain ⟨pre, hpre, hblank⟩ := ih line (column + 1)
      refine ⟨b :: pre, by rw [List.cons_append, ← hpre], fun x hx => ?_⟩
      rcases List.mem_cons.mp hx with rfl | hx
      · rcases hb with h | h | h <;> simp [Blank, h]
      · exact hblank x hx
    · split
      · next hb =>
        obtain ⟨pre, hpre, hblank⟩ := ih (line + 1) 0
        refine ⟨b :: pre, by rw [List.cons_append, ← hpre], fun x hx => ?_⟩
        rcases List.mem_cons.mp hx with rfl | hx
        · simp [Blank, hb]
        · exact hblank x hx
      · exact ⟨[], rfl, fun _ h => absurd h List.not_mem_nil⟩

theorem walksOn_skipWs (k : Nat) : WalksOn P skipWs (out k) (out k) := by
  intro c a c' _ hrun
  rw [skipWs_run] at hrun
  cases hrun
  obtain ⟨pre, hpre, hblank⟩ := skipBlanks_split c.rest c.line c.column
  exact ⟨pre, hpre, run_out_quiet (fun b hb => (hblank b hb).quiet) k⟩

theorem walks_ident {k : Nat} : ∀ ws : List UInt8, (∀ w ∈ ws, Quiet w) → Walks (ident ws) (out k) (out k)
  | [], _ => WalksOn.pure ()
  | w :: ws, hws => by
    rw [ident]
    refine WalksOn.next_bind (fun b => ?_) ((fails_fail _).walksOn)
    dsimp only
    split
    · next hb =>
      rw [hb, step_out_quiet (hws w (List.mem_cons_self ..))]
      exact walks_ident ws fun x hx => hws x (List.mem_cons_of_mem _ hx)
    · exact (fails_fail _).walksOn

theorem Walks.on (h : Walks r s t) : WalksOn P r s t := h.mono fun _ _ => trivial

end Walking

/-! ### String literals: from inside the literal to after it -/

section Strings

variable {k : Nat}

theorem hexValue_plain {b : UInt8} {v : Nat} (h : hexValue b = some v) : b ≠ 34 ∧ b ≠ 92 := by
  constructor <;> rintro rfl <;> cases h

theorem walks_hexEscape : Walks hexEscape (lit k) (lit k) := by
  unfold hexEscape
  refine WalksOn.get_bind fun c₀ => ?_
  split
  · next a b d e rest hrest =>
    refine WalksOn.bump_bind (Q := fun l => l = b :: d :: e :: rest)
      (fun l hl => ⟨_, hl.2.trans hrest, rfl⟩) ?_
    refine WalksOn.bump_bind (Q := fun l => l = d :: e :: rest) (fun l hl => ⟨_, hl, rfl⟩) ?_
    refine WalksOn.bump_bind (Q := fun l => l = e :: rest) (fun l hl => ⟨_, hl, rfl⟩) ?_
    refine WalksOn.bump_bind (Q := fun _ => True) (fun l hl => ⟨_, hl, trivial⟩) ?_
    split
    · next ha hb hd he =>
      have hsteps : ((((lit k).step a).step b).step d).step e = lit k := by
        rw [step_lit_plain (hexValue_plain ha).1 (hexValue_plain ha).2,
          step_lit_plain (hexValue_plain hb).1 (hexValue_plain hb).2,
          step_lit_plain (hexValue_plain hd).1 (hexValue_plain hd).2,
          step_lit_plain (hexValue_plain he).1 (hexValue_plain he).2]
      rw [hsteps]
      exact WalksOn.pure _
    · exact (fails_fail _).walksOn
  · exact (Fails.bind_right fun _ => fails_fail _).walksOn

theorem walks_unicodeEscape : Walks unicodeEscape (lit k) (lit k) := by
  unfold unicodeEscape
  refine walks_hexEscape.bind fun n => ?_
  split
  · exact (fails_fail _).walksOn
  split
  · exact WalksOn.pure _
  refine WalksOn.peek_bind fun o => ?_
  cases o with
  | none => exact (fails_fail _).walksOn
  | some b =>
    refine WalksOn.bump_seen (fun l hl => hl.2) ?_
    split
    · exact (fails_fail _).walksOn
    · next hb =>
      rw [show b = 92 from Classical.not_not.mp hb]
      refine WalksOn.peek_bind fun o => ?_
      cases o with
      | none => exact (fails_fail _).walksOn
      | some u =>
        refine WalksOn.bump_seen (fun l hl => hl.2) ?_
        split
        · exact (fails_fail _).walksOn
        · refine walks_hexEscape.bind fun n₂ => ?_
          split
          · exact (fails_fail _).walksOn
          · exact WalksOn.pure _

theorem walks_escape : Walks escape (esc k) (lit k) := by
  unfold escape
  refine WalksOn.next_bind (fun b => ?_) (fails_fail _).walksOn
  show Walks _ (lit k) (lit k)
  dsimp only
  repeat' split
  all_goals first
    | exact WalksOn.pure _
    | exact walks_unicodeEscape
    | exact (fails_fail _).walksOn

theorem walks_stringBody : ∀ fuel acc, Walks (stringBody fuel acc) (lit k) (out k)
  | 0, _ => (fails_fail _).walksOn
  | fuel + 1, acc => by
    rw [stringBody]
    refine WalksOn.peek_bind fun o => ?_
    cases o with
    | none => exact (fails_fail _).walksOn
    | some b =>
      dsimp only
      split
      · next h34 =>
        rw [h34]
        exact WalksOn.bump_seen (fun l hl => hl.2) (WalksOn.pure _)
      split
      · next h92 =>
        rw [h92]
        exact WalksOn.bump_seen (fun l hl => hl.2)
          (walks_escape.bind fun e => walks_stringBody fuel _)
      split
      · exact WalksOn.bump_seen (fun l hl => hl.2) (fails_fail _).walksOn
      · next h34 h92 _ =>
        refine WalksOn.bump_seen (fun l hl => hl.2) ?_
        rw [step_lit_plain h34 h92]
        exact walks_stringBody fuel _

theorem walks_string : Walks string (lit k) (out k) := by
  unfold string
  refine WalksOn.get_bind fun c₀ => ?_
  refine (walks_stringBody _ []).on.bind fun bytes => ?_
  split
  · exact WalksOn.pure _
  · exact (fails_fail _).walksOn

end Strings

/-! ### Numbers: digits, signs, points and exponents, all quiet -/

section Numbers

variable {P : List UInt8 → Prop} {k : Nat} {t : Scan}

theorem digit?_quiet {o : Option UInt8} {d : Nat} (h : digit? o = some d) : ∃ b, o = some b ∧ Quiet b := by
  cases o with
  | none => cases h
  | some b =>
    refine ⟨b, rfl, ?_⟩
    simp only [digit?] at h
    split at h
    · next hb =>
      have hb' : 48 ≤ b.toNat ∧ b.toNat ≤ 57 := by
        simpa [UInt8.le_iff_toNat_le] using hb
      exact DigitByte.quiet hb'
    · cases h

theorem WalksOn.bump_quiet_seen {f : Unit → Reader α} {b : UInt8} (hb : Quiet b)
    (hP : ∀ l, P l → l.head? = some b) (hf : Walks (f ()) (out k) t) : WalksOn P (bump >>= f) (out k) t :=
  WalksOn.bump_seen hP (by rw [step_out_quiet hb]; exact hf)

theorem WalksOn.bump_digit {f : Unit → Reader α} {o : Option UInt8} {d : Nat} (hd : digit? o = some d)
    (hP : ∀ l, P l → l.head? = o) (hf : Walks (f ()) (out k) t) : WalksOn P (bump >>= f) (out k) t := by
  obtain ⟨b, rfl, hb⟩ := digit?_quiet hd
  exact WalksOn.bump_quiet_seen hb hP hf

/-- The head of the bytes ahead, if any, is quiet. -/
def QuietHead (l : List UInt8) : Prop := ∀ b ∈ l.head?, Quiet b

theorem quietHead_of_head? {l : List UInt8} {b : UInt8} (hb : Quiet b) (h : l.head? = some b) :
    QuietHead l := by
  intro x hx
  rw [h] at hx
  cases hx
  exact hb

theorem walks_skipDigits : ∀ fuel, Walks (skipDigits fuel) (out k) (out k)
  | 0 => WalksOn.pure ()
  | fuel + 1 => by
    rw [skipDigits]
    refine WalksOn.peek_bind fun o => ?_
    split
    · next d hd => exact WalksOn.bump_digit hd (fun l hl => hl.2) (walks_skipDigits fuel)
    · exact WalksOn.pure ()

theorem walks_fromParts_go {s : Scan} : ∀ n f e, Walks (fromParts.go n f e) s s
  | 0, f, _ => WalksOn.pure f
  | n + 1, f, e => by
    rw [fromParts.go]
    dsimp only
    repeat' split
    all_goals first
      | exact WalksOn.pure _
      | exact (fails_fail _).walksOn
      | exact walks_fromParts_go n _ _

theorem walks_fromParts {s : Scan} (positive : Bool) (significand : Nat) (exponent : Int) :
    Walks (fromParts positive significand exponent) s s := by
  unfold fromParts
  exact (walks_fromParts_go 8 _ _).bind fun _ => WalksOn.pure _

theorem walks_exponentOverflow (positive zero positiveExp : Bool) :
    Walks (exponentOverflow positive zero positiveExp) (out k) (out k) := by
  unfold exponentOverflow
  split
  · exact (fails_fail _).walksOn
  · exact WalksOn.get_bind fun _ => (walks_skipDigits _).on.bind fun _ => WalksOn.pure _

theorem walks_exponentDigits (positive : Bool) (significand : Nat) (start : Int) (positiveExp : Bool) :
    ∀ fuel exp, Walks (exponentDigits positive significand start positiveExp fuel exp) (out k) (out k)
  | 0, exp => walks_fromParts _ _ _
  | fuel + 1, exp => by
    rw [exponentDigits]
    refine WalksOn.peek_bind fun o => ?_
    split
    · next d hd =>
      refine WalksOn.bump_digit hd (fun l hl => hl.2) ?_
      split
      · exact walks_exponentOverflow _ _ _
      · exact walks_exponentDigits positive significand start positiveExp fuel _
    · exact (walks_fromParts _ _ _).on

theorem walksOn_exponentPart (positive : Bool) (significand : Nat) (start : Int) :
    WalksOn QuietHead (exponentPart positive significand start) (out k) (out k) := by
  unfold exponentPart
  refine WalksOn.bump_quiet (fun l hl b hb => step_out_quiet (hl b hb) k) ?_
  refine WalksOn.peek_bind fun o => ?_
  dsimp only
  simp only [pure_bind]
  split
  all_goals try refine WalksOn.bump_quiet_seen (by decide) (fun l hl => hl.2) ?_
  all_goals
    refine WalksOn.next_bind (fun b => ?_) (fails_fail _).walksOn
    dsimp only
    split
    · next d hd =>
      obtain ⟨_, hb, hquiet⟩ := digit?_quiet hd
      cases hb
      rw [step_out_quiet hquiet]
      exact WalksOn.get_bind fun _ => (walks_exponentDigits _ _ _ _ _ _).on
    · exact (fails_fail _).walksOn

theorem walks_fractionOverflow (positive : Bool) (significand : Nat) (exponent : Int) :
    Walks (fractionOverflow positive significand exponent) (out k) (out k) := by
  unfold fractionOverflow
  refine WalksOn.get_bind fun _ => (walks_skipDigits _).on.bind fun _ => ?_
  refine WalksOn.peek_bind fun o => ?_
  split
  · exact (walksOn_exponentPart _ _ _).mono fun l hl => quietHead_of_head? (by decide) hl.2
  · exact (walksOn_exponentPart _ _ _).mono fun l hl => quietHead_of_head? (by decide) hl.2
  · exact (walks_fromParts _ _ _).on

theorem walks_fractionDigits (positive : Bool) (start : Int) :
    ∀ fuel sig exp, Walks (fractionDigits positive start fuel sig exp) (out k) (out k)
  | 0, sig, exp => walks_fromParts _ _ _
  | fuel + 1, sig, exp => by
    rw [fractionDigits]
    refine WalksOn.peek_bind fun o => ?_
    split
    · next d hd =>
      split
      · exact (walks_fractionOverflow _ _ _).on
      · exact WalksOn.bump_digit hd (fun l hl => hl.2) (walks_fractionDigits positive start fuel _ _)
    · split
      · exact WalksOn.peek_bind fun o => by split <;> exact (fails_failAhead _).walksOn
      · refine WalksOn.peek_bind fun o => ?_
        split
        · exact (walksOn_exponentPart _ _ _).mono fun l hl => quietHead_of_head? (by decide) hl.2
        · exact (walksOn_exponentPart _ _ _).mono fun l hl => quietHead_of_head? (by decide) hl.2
        · exact (walks_fromParts _ _ _).on

theorem walksOn_fractionPart (positive : Bool) (significand : Nat) (start : Int) :
    WalksOn QuietHead (fractionPart positive significand start) (out k) (out k) := by
  unfold fractionPart
  refine WalksOn.bump_quiet (fun l hl b hb => step_out_quiet (hl b hb) k) ?_
  exact WalksOn.get_bind fun _ => (walks_fractionDigits _ _ _ _ _).on

theorem walks_longInteger (positive : Bool) (significand : Nat) :
    ∀ fuel exp, Walks (longInteger positive significand fuel exp) (out k) (out k)
  | 0, exp => walks_fromParts _ _ _
  | fuel + 1, exp => by
    rw [longInteger]
    refine WalksOn.peek_bind fun o => ?_
    split
    · exact (walksOn_fractionPart _ _ _).mono fun l hl => quietHead_of_head? (by decide) hl.2
    · exact (walksOn_exponentPart _ _ _).mono fun l hl => quietHead_of_head? (by decide) hl.2
    · exact (walksOn_exponentPart _ _ _).mono fun l hl => quietHead_of_head? (by decide) hl.2
    · split
      · next d hd =>
        exact WalksOn.bump_digit hd (fun l hl => hl.2) (walks_longInteger positive significand fuel _)
      · exact (walks_fromParts _ _ _).on

theorem walks_numberTail (positive : Bool) (significand : Nat) :
    Walks (numberTail positive significand) (out k) (out k) := by
  unfold numberTail
  refine WalksOn.peek_bind fun o => ?_
  split
  · exact ((walksOn_fractionPart _ _ _).mono fun l hl => quietHead_of_head? (by decide) hl.2).bind
      fun _ => WalksOn.pure _
  · exact ((walksOn_exponentPart _ _ _).mono fun l hl => quietHead_of_head? (by decide) hl.2).bind
      fun _ => WalksOn.pure _
  · exact ((walksOn_exponentPart _ _ _).mono fun l hl => quietHead_of_head? (by decide) hl.2).bind
      fun _ => WalksOn.pure _
  · repeat' split
    all_goals exact WalksOn.pure _

theorem walks_integerDigits (positive : Bool) :
    ∀ fuel sig, Walks (integerDigits positive fuel sig) (out k) (out k)
  | 0, sig => walks_numberTail _ _
  | fuel + 1, sig => by
    rw [integerDigits]
    refine WalksOn.peek_bind fun o => ?_
    split
    · next d hd =>
      split
      · exact WalksOn.get_bind fun _ => (walks_longInteger _ _ _ _).on.bind fun _ => WalksOn.pure _
      · exact WalksOn.bump_digit hd (fun l hl => hl.2) (walks_integerDigits positive fuel _)
    · exact (walks_numberTail _ _).on

theorem walks_streamedNumber (positive : Bool) : Walks (streamedNumber positive) (out k) (out k) := by
  unfold streamedNumber
  refine WalksOn.next_bind (fun b => ?_) (fails_fail _).walksOn
  dsimp only
  split
  · next h48 =>
    rw [h48, step_out_quiet (by decide)]
    refine WalksOn.peek_bind fun o => ?_
    split
    · exact (fails_failAhead _).walksOn
    · exact (walks_numberTail _ _).on
  · split
    · next d hd =>
      obtain ⟨_, hb, hquiet⟩ := digit?_quiet hd
      cases hb
      rw [step_out_quiet hquiet]
      exact WalksOn.get_bind fun _ => (walks_integerDigits _ _ _).on
    · exact (fails_fail _).walksOn

theorem walks_numberChars : ∀ fuel acc, Walks (numberChars fuel acc) (out k) (out k)
  | 0, acc => WalksOn.pure _
  | fuel + 1, acc => by
    rw [numberChars]
    refine WalksOn.peek_bind fun o => ?_
    split
    · next b =>
      split
      · next hb =>
        have hquiet : Quiet b := by
          simp only [Quiet, ne_eq, ← UInt8.toNat_inj, UInt8.le_iff_toNat_le] at hb ⊢
          simp only [UInt8.toNat_ofNat] at hb ⊢
          omega
        exact WalksOn.bump_quiet_seen hquiet (fun l hl => hl.2) (walks_numberChars fuel _)
      · exact WalksOn.pure _
    · exact WalksOn.pure _

theorem walks_exactNumber (positive : Bool) : Walks (exactNumber positive) (out k) (out k) := by
  unfold exactNumber
  refine WalksOn.get_bind fun _ => (walks_numberChars _ _).on.bind fun cs => ?_
  repeat' split
  all_goals exact WalksOn.pure _

theorem walks_number (positive : Bool) : Walks (number positive) (out k) (out k) := by
  unfold number
  refine WalksOn.source_bind fun src => ?_
  split
  · exact walks_streamedNumber _
  · exact walks_exactNumber _

end Numbers

/-! ### Containers: a whole value leaves the nesting as it found it -/

section Containers

variable {P : List UInt8 → Prop} {k : Nat}

theorem walksOn_bump_quiet_seen {b : UInt8} (hb : Quiet b) (hP : ∀ l, P l → l.head? = some b) :
    WalksOn P bump (out k) (out k) := by
  have h := walksOn_bump (s := out k) hP
  rwa [step_out_quiet hb] at h

theorem walksOn_bump_close {b : UInt8} (hb : b = 125 ∨ b = 93) (hP : ∀ l, P l → l.head? = some b) :
    WalksOn P bump (out (k + 1)) (out k) := by
  have h := walksOn_bump (s := out (k + 1)) hP
  have hstep : (out (k + 1)).step b = out k := by
    rcases hb with rfl | rfl <;> rfl
  rwa [hstep] at h

theorem WalksOn.map {r : Reader α} {f : α → β} {s t : Scan} (h : WalksOn P r s t) :
    WalksOn P (f <$> r) s t := by
  rw [map_eq_pure_bind]
  exact h.bind fun _ => WalksOn.pure _

theorem walks_nextItem (first : Bool) : Walks (nextItem first) (out k) (out k) := by
  unfold nextItem
  refine (walksOn_skipWs k).bind fun _ => WalksOn.peek_bind fun o => ?_
  split
  · exact WalksOn.pure _
  · split
    · exact (fails_failAhead _).walksOn
    · refine WalksOn.bump_quiet_seen (by decide) (fun l hl => hl.2) ?_
      refine (walksOn_skipWs k).bind fun _ => WalksOn.peek_bind fun o => ?_
      split
      · exact (fails_failAhead _).walksOn
      · exact WalksOn.pure _
      · exact (fails_failAhead _).walksOn
  · split
    · exact WalksOn.pure _
    · exact (fails_failAhead _).walksOn
  · exact (fails_failAhead _).walksOn

theorem walks_nextKey (first : Bool) : Walks (nextKey first) (out k) (out k) := by
  unfold nextKey
  refine (walksOn_skipWs k).bind fun _ => WalksOn.peek_bind fun o => ?_
  dsimp only
  split
  · exact WalksOn.pure _
  · split
    · exact (fails_failAhead _).walksOn
    · refine WalksOn.bump_quiet_seen (by decide) (fun l hl => hl.2) ?_
      refine (walksOn_skipWs k).bind fun _ => WalksOn.peek_bind fun o => ?_
      split
      · exact WalksOn.bump_seen (fun l hl => hl.2) (walks_string.bind fun _ => WalksOn.pure _)
      all_goals exact (fails_failAhead _).walksOn
  · split
    · split
      · next heq =>
        cases heq
        exact WalksOn.bump_seen (fun l hl => hl.2) (walks_string.bind fun _ => WalksOn.pure _)
      all_goals exact (fails_failAhead _).walksOn
    · exact (fails_failAhead _).walksOn
  · exact (fails_failAhead _).walksOn

theorem walks_colon : Walks colon (out k) (out k) := by
  unfold colon
  refine (walksOn_skipWs k).bind fun _ => WalksOn.peek_bind fun o => ?_
  split
  · exact walksOn_bump_quiet_seen (by decide) fun l hl => hl.2
  all_goals exact (fails_failAhead _).walksOn

theorem walks_closeArray : Walks closeArray (out (k + 1)) (out k) := by
  unfold closeArray
  refine (walksOn_skipWs (k + 1)).bind fun _ => WalksOn.peek_bind fun o => ?_
  split
  · exact walksOn_bump_close (.inr rfl) fun l hl => hl.2
  · refine WalksOn.bump_quiet_seen (by decide) (fun l hl => hl.2) ?_
    refine (walksOn_skipWs (k + 1)).bind fun _ => WalksOn.peek_bind fun o => ?_
    split <;> exact (fails_failAhead _).walksOn
  all_goals exact (fails_failAhead _).walksOn

theorem walks_closeObject : Walks closeObject (out (k + 1)) (out k) := by
  unfold closeObject
  refine (walksOn_skipWs (k + 1)).bind fun _ => WalksOn.peek_bind fun o => ?_
  split
  · exact walksOn_bump_close (.inl rfl) fun l hl => hl.2
  all_goals exact (fails_failAhead _).walksOn

theorem walks_literal {w : List UInt8} {x : α} (hw : ∀ b ∈ w, Quiet b) {b : UInt8} (hb : Quiet b)
    (hP : ∀ l, P l → l.head? = some b) :
    WalksOn P (bump >>= fun _ => ident w >>= fun _ => Pure.pure x) (out k) (out k) :=
  WalksOn.bump_quiet_seen hb hP ((walks_ident w hw).bind fun _ => WalksOn.pure _)

theorem walks_value_items_members : ∀ fuel,
    (∀ k, Walks (value fuel) (out k) (out k)) ∧
    (∀ k first acc, Walks (items fuel first acc) (out k) (out k)) ∧
    (∀ k first acc, Walks (Reader.members fuel first acc) (out k) (out k))
  | 0 => ⟨fun _ => (fails_failBare _).walksOn, fun _ _ _ => WalksOn.pure _, fun _ _ _ => WalksOn.pure _⟩
  | fuel + 1 => by
    obtain ⟨hvalue, hitems, hmembers⟩ := walks_value_items_members fuel
    refine ⟨fun k => ?_, fun k first acc => ?_, fun k first acc => ?_⟩
    · rw [value]
      refine WalksOn.placeFaults ((walksOn_skipWs k).bind fun _ => WalksOn.peek_bind fun o => ?_)
      split
      · exact (fails_failAhead _).walksOn
      · exact walks_literal (by rw [bytesOf_ull]; decide +kernel) (by decide) fun l hl => hl.2
      · exact walks_literal (by rw [bytesOf_rue]; decide +kernel) (by decide) fun l hl => hl.2
      · exact walks_literal (by rw [bytesOf_alse]; decide +kernel) (by decide) fun l hl => hl.2
      · exact WalksOn.bump_quiet_seen (by decide) (fun l hl => hl.2)
          ((walks_number false).bind fun _ => WalksOn.pure _)
      · exact WalksOn.bump_seen (fun l hl => hl.2) (walks_string.bind fun _ => WalksOn.pure _)
      · exact WalksOn.nested (WalksOn.bump_seen (fun l hl => hl.2)
          (WalksOn.thenClose ((hitems (k + 1) true []).bind fun _ => WalksOn.pure _) walks_closeArray))
      · exact WalksOn.nested (WalksOn.bump_seen (fun l hl => hl.2)
          (WalksOn.thenClose ((hmembers (k + 1) true []).bind fun _ => WalksOn.pure _) walks_closeObject))
      · split
        · exact (walks_number true).on.bind fun _ => WalksOn.pure _
        · exact (fails_failAhead _).walksOn
    · rw [items]
      refine (walks_nextItem first).bind fun more => ?_
      split
      · exact (hvalue k).bind fun _ => hitems k false _
      · exact WalksOn.pure _
    · rw [Reader.members]
      refine (walks_nextKey first).bind fun key => ?_
      split
      · exact walks_colon.bind fun _ => (hvalue k).bind fun _ => hmembers k false _
      · exact WalksOn.pure _

theorem walks_anyValue : Walks anyValue (out k) (out k) :=
  WalksOn.get_bind fun _ => ((walks_value_items_members _).1 k).on

end Containers

/-! ### Typed readers and records -/

section Records

variable {P : List UInt8 → Prop} {k : Nat}

theorem fails_invalidType (expecting : String) : Fails (invalidType expecting : Reader α) := by
  unfold invalidType
  refine Fails.placeFaults (Fails.bind_right fun o => ?_)
  dsimp only
  repeat' first
    | exact fails_fail _
    | exact fails_failAhead _
    | split
    | refine Fails.bind_right fun _ => ?_

theorem walks_stringWith (expecting : String) (parse : String → Except String α) :
    Walks (stringWith expecting parse) (out k) (out k) := by
  unfold stringWith
  refine WalksOn.placeFaults ((walksOn_skipWs k).bind fun _ => WalksOn.peek_bind fun o => ?_)
  split
  · exact (fails_failAhead _).walksOn
  · refine WalksOn.bump_seen (fun l hl => hl.2) (walks_string.bind fun text => ?_)
    split
    · exact WalksOn.pure _
    · exact (fails_failBare _).walksOn
  · exact (fails_invalidType _).walksOn

theorem walks_str : Walks Reader.str (out k) (out k) := walks_stringWith _ _

theorem walks_unsigned (expecting : String) (max : Nat) :
    Walks (unsigned expecting max) (out k) (out k) := by
  unfold unsigned
  refine WalksOn.placeFaults ((walksOn_skipWs k).bind fun _ => WalksOn.peek_bind fun o => ?_)
  dsimp only
  split
  · exact (fails_failAhead _).walksOn
  · refine WalksOn.bump_quiet_seen (by decide) (fun l hl => hl.2)
      ((walks_number false).bind fun n => ?_)
    repeat' split
    all_goals first
      | exact WalksOn.pure _
      | exact (fails_failBare _).walksOn
  · split
    · refine (walks_number true).on.bind fun n => ?_
      repeat' split
      all_goals first
        | exact WalksOn.pure _
        | exact (fails_failBare _).walksOn
    · exact (fails_invalidType _).walksOn

theorem walks_u64 : Walks u64 (out k) (out k) := walks_unsigned _ _

theorem walks_option {r : Reader α} (hr : Walks r (out k) (out k)) :
    Walks (option r) (out k) (out k) := by
  unfold option
  refine (walksOn_skipWs k).bind fun _ => WalksOn.peek_bind fun o => ?_
  split
  · exact walks_literal (by rw [bytesOf_ull]; decide +kernel) (by decide) fun l hl => hl.2
  · exact hr.on.map

theorem walks_checkMissing {fmt : RecordFormat α} {seen : List Nat} {s : Scan} :
    Walks (checkMissing fmt seen) s s := by
  unfold checkMissing
  split
  · exact (fails_failBare _).walksOn
  · exact WalksOn.pure _

theorem walks_buffered {r : Reader β} {v : Json} {s : Scan} : Walks (buffered r v) s s := by
  unfold buffered
  split
  · exact WalksOn.pure _
  · exact (fails_failBare _).walksOn

theorem RecordFormat.mem_of_lookup {fmt : RecordFormat α} {key : String} {i : Nat}
    {f : RecordField α} (h : fmt.lookup key = some (i, f)) : f ∈ fmt.fields := by
  suffices hgo : ∀ fs j, RecordFormat.lookup.go key j fs = some (i, f) → f ∈ fs from hgo _ 0 h
  intro fs
  induction fs with
  | nil => intro j hj; cases hj
  | cons g fs ih =>
    intro j hj
    simp only [RecordFormat.lookup.go] at hj
    split at hj
    · cases hj
      exact List.mem_cons_self ..
    · exact List.mem_cons_of_mem _ (ih _ hj)

variable {fmt : RecordFormat α}

/-- The members of a record whose fields each read a whole value. -/
theorem walks_flatMembers (hfields : ∀ f ∈ fmt.fields, ∀ a k, Walks (f.read a) (out k) (out k)) :
    ∀ fuel first seen held a, Walks (flatMembers fmt fuel first seen held a) (out k) (out k)
  | 0, _, _, _, _ => WalksOn.pure _
  | fuel + 1, first, seen, held, a => by
    rw [flatMembers]
    refine (walks_nextKey first).bind fun key => ?_
    split
    · exact WalksOn.pure _
    · split
      · next i f hlookup =>
        split
        · exact (fails_failBare _).walksOn
        · exact walks_colon.bind fun _ => (hfields f (RecordFormat.mem_of_lookup hlookup) a k).bind
            fun _ => walks_flatMembers hfields fuel _ _ _ _
      · exact walks_colon.bind fun _ => walks_anyValue.bind fun _ =>
          walks_flatMembers hfields fuel _ _ _ _

/-- A record read from an object, unknown members held back for `complete`, which reads no text of
its own. -/
theorem walks_flatRecord {complete : α → List (String × Json) → Reader α}
    (hfields : ∀ f ∈ fmt.fields, ∀ a k, Walks (f.read a) (out k) (out k))
    (hcomplete : ∀ a held s, Walks (complete a held) s s) :
    Walks (flatRecord fmt complete) (out k) (out k) := by
  unfold flatRecord
  refine WalksOn.placeFaults ((walksOn_skipWs k).bind fun _ => WalksOn.peek_bind fun o => ?_)
  split
  · exact (fails_failAhead _).walksOn
  · refine WalksOn.nested (WalksOn.bump_seen (fun l hl => hl.2) ?_)
    refine WalksOn.get_bind fun _ => WalksOn.thenClose ?_ walks_closeObject
    refine (walks_flatMembers hfields _ _ _ _ _).on.bind fun x => ?_
    obtain ⟨a, seen, held⟩ := x
    exact walks_checkMissing.bind fun _ => hcomplete a held _
  · exact (fails_invalidType _).walksOn

end Records

/-! ## Cut text does not read as a record -/

section Cut

theorem finish_blanks {c c' : Cursor} {u : Unit} (h : finish.run.run c = (.ok u, c')) :
    ∀ b ∈ c.rest, Blank b := by
  unfold finish at h
  obtain ⟨_, c₁, h₁, h₂⟩ := bind_run_ok h
  rw [skipWs_run] at h₁
  cases h₁
  rw [run_bind, peek_run] at h₂
  obtain ⟨pre, hpre, hblank⟩ := skipBlanks_split c.rest c.line c.column
  cases hrest : (skipBlanks c.rest c.line c.column).1 with
  | nil =>
    rw [hrest, List.append_nil] at hpre
    rw [hpre]
    exact hblank
  | cons b l =>
    simp only [hrest, List.head?_cons] at h₂
    exact absurd h₂ (fails_failAhead _ _ _ _)

variable {fmt : RecordFormat α} {complete : α → List (String × Json) → Reader α}

theorem flatRecord_nil_fails {c c' : Cursor} {a : α} (hc : c.rest = []) :
    (flatRecord fmt complete).run.run c ≠ (.ok a, c') := by
  intro h
  obtain ⟨_, c₁, h₁, h₂⟩ := bind_run_ok (placeFaults_ok h)
  rw [skipWs_run] at h₁
  cases h₁
  rw [run_bind, peek_run] at h₂
  simp only [hc, skipBlanks, List.head?_nil] at h₂
  exact fails_failAhead _ _ _ _ h₂

/-- No strict prefix of an object's compact text reads as a record, whatever blanks follow what is
read: the record would have to end where the object's brackets close, at its last byte. -/
theorem flatRecord_cut_fails (hfields : ∀ f ∈ fmt.fields, ∀ a k, Walks (f.read a) (out k) (out k))
    (hcomplete : ∀ a held s, Walks (complete a held) s s) {m : String × Json}
    {ms : List (String × Json)} (hv : (Json.obj (m :: ms)).plain) {j : Nat}
    (hj : j < (spell false 0 (.obj (m :: ms))).length) (x : α) :
    (flatRecord fmt complete).runOn ((spell false 0 (.obj (m :: ms))).take j) .text ≠ .ok x := by
  intro h
  obtain ⟨c', hrun⟩ : ∃ c', ((do let a ← flatRecord fmt complete; finish; Pure.pure a : Reader α)).run.run
      (Cursor.start ((spell false 0 (.obj (m :: ms))).take j) .text) = (.ok x, c') :=
    ⟨_, Prod.ext h rfl⟩
  obtain ⟨a, c₁, hrec, hfin⟩ := bind_run_ok hrun
  obtain ⟨u, c₂, hfinish, -⟩ := bind_run_ok hfin
  have hblank := finish_blanks hfinish
  obtain ⟨pre, hpre, hscan⟩ := walks_flatRecord (k := 0) hfields hcomplete _ _ _ trivial hrec
  change (spell false 0 (.obj (m :: ms))).take j = pre ++ c₁.rest at hpre
  by_cases hnil : pre = []
  · subst hnil
    cases j with
    | zero => exact flatRecord_nil_fails rfl hrec
    | succ j =>
      have hhead : ((spell false 0 (.obj (m :: ms))).take (j + 1)).head? = some 123 := by
        simp [spell, lead]
      rw [hpre, List.nil_append] at hhead
      exact absurd (hblank 123 (List.mem_of_head? hhead)) (by decide)
  · have hprefix : pre <+: spell false 0 (.obj (m :: ms)) :=
      (List.prefix_append pre c₁.rest).trans (hpre ▸ List.take_prefix j _)
    have hstrict : pre ≠ spell false 0 (.obj (m :: ms)) := by
      intro heq
      have hlen : pre.length ≤ j := by
        have hsplit := congrArg List.length hpre
        rw [List.length_take, List.length_append] at hsplit
        omega
      rw [heq] at hlen
      omega
    have hdepth := Balanced.obj_nested (k := 0) hv hprefix hnil hstrict
    rw [hscan] at hdepth
    exact absurd hdepth (by simp [depth])

end Cut

end Reading

end RunJournal.Json

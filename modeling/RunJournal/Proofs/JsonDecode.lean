import RunJournal.Proofs.JsonRead
/-!
# Typed readers read back what is written

`Decodes r enc ok`: every value `ok` admits is written by `enc` as a plain value, and `r` reads
that value back from any source, in either layout, at any indent, blanks before it skipped,
whatever may follow it. The readers of strings, integers, booleans, options and lists are each one
lemma; records are read field by field in declaration order (`FieldsRead`, `Decodes.record`), a
record that holds back the members it does not know hands them on as they were written
(`Reads.flatRecord`), and those members read again from their compact text (`Reads.buffered`).
-/

namespace RunJournal.Json

open Reader

variable {α β : Type}

/-- `r` reads back every value that `enc` writes of an `a` that `ok` admits. -/
def Decodes (r : Reader α) (enc : α → Json) (ok : α → Prop) : Prop :=
  ∀ a, ok a → (enc a).plain ∧ ∀ (src : Source) (p : Bool) (k d : Nat) (bs s : List UInt8),
    (∀ b ∈ bs, Blank b) → Ends s → nesting (enc a) < d →
    Reads src d r (bs ++ (spell p k (enc a) ++ s)) s a

theorem Decodes.mono {r : Reader α} {enc : α → Json} {ok ok' : α → Prop} (h : Decodes r enc ok)
    (hok : ∀ a, ok' a → ok a) : Decodes r enc ok' :=
  fun a ha => h a (hok a ha)

section Scalars

theorem Reads.stringWith {src : Source} {d : Nat} {expecting : String}
    {parse : String → Except String α} {t : String} {a : α} (hparse : parse t = .ok a)
    {bs : List UInt8} (s : List UInt8) (hbs : ∀ b ∈ bs, Blank b) :
    Reads src d (Reader.stringWith expecting parse) (bs ++ ((Json.quote t).toUTF8.toList ++ s)) s a := by
  rw [Reader.stringWith, quote_bytes]
  simp only [List.cons_append, List.append_assoc]
  refine Reads.placeFaults ((Reads.skipWs hbs (noBlank_of_not_blank (by decide) _)).bind
    (Reads.peek.bind ?_))
  refine (Reads.bump_cons 34).bind ((Reads.string t).bind ?_)
  rw [hparse]
  exact Reads.pure a

/-- A string read and handed to `parse`, which gives back what `render` wrote. -/
theorem Decodes.stringWith {expecting : String} {parse : String → Except String α}
    {render : α → String} {ok : α → Prop} (hparse : ∀ a, ok a → parse (render a) = .ok a) :
    Decodes (Reader.stringWith expecting parse) (fun a => .str (render a)) ok :=
  fun a ha => ⟨rfl, fun _ _ _ _ _ s hbs _ _ => Reads.stringWith (hparse a ha) s hbs⟩

theorem Decodes.str : Decodes Reader.str Json.str fun _ => True :=
  @Decodes.stringWith String "a string" Except.ok id _ fun _ _ => rfl

theorem Decodes.unsigned {expecting : String} {max : Nat} (hmax : max ≤ u64Max) :
    Decodes (Reader.unsigned expecting max) Json.ofNat (· ≤ max) := by
  intro n hn
  refine ⟨by simp [Json.ofNat, plain]; omega, fun src p k d bs s hbs hs _ => ?_⟩
  obtain ⟨b, t, hbytes, _, _⟩ := digitBytes_cons n
  have hdigit := digitBytes_digits n b (by rw [hbytes]; exact List.mem_cons_self ..)
  have hread : Reads src d (number true) (digitBytes n ++ s) s (.nat n) :=
    Reads.number_nat (show n ≤ u64Max by omega) hs
  rw [Reader.unsigned, Json.ofNat, nat_bytes]
  refine Reads.placeFaults ((Reads.skipWs hbs ?_).bind (Reads.peek.bind ?_))
  · rw [hbytes, List.cons_append]
    exact noBlank_of_not_blank (Opens.not_blank (Or.inr (Or.inr (Or.inr (Or.inr (Or.inr
      (Or.inr hdigit))))))).1 _
  rw [hbytes, List.cons_append] at hread ⊢
  simp only [List.head?_cons]
  rcases hdigit.cases with rfl | rfl | rfl | rfl | rfl | rfl | rfl | rfl | rfl | rfl <;>
    exact hread.bind (by simpa [hn] using Reads.pure n)

theorem Decodes.bool : Decodes Reader.bool Json.bool fun _ => True := by
  intro v _
  refine ⟨rfl, fun src p k d bs s hbs _ _ => ?_⟩
  rw [Reader.bool]
  cases v
  · rw [false_bytes]
    refine Reads.placeFaults ((Reads.skipWs hbs (noBlank_of_not_blank (by decide) _)).bind
      (Reads.peek.bind ?_))
    refine (Reads.bump_cons 102).bind ?_
    rw [bytesOf_alse]
    exact (Reads.ident [97, 108, 115, 101]).bind (Reads.pure _)
  · rw [true_bytes]
    refine Reads.placeFaults ((Reads.skipWs hbs (noBlank_of_not_blank (by decide) _)).bind
      (Reads.peek.bind ?_))
    refine (Reads.bump_cons 116).bind ?_
    rw [bytesOf_rue]
    exact (Reads.ident [114, 117, 101]).bind (Reads.pure _)

/-- A field-less variant written as its name is read as its position among `names`. -/
theorem Reads.unitVariant {names : List String} {name : String} {i : Nat}
    (hi : indexOf? names name = some i) (src : Source) (p : Bool) (k d : Nat) {bs : List UInt8}
    (s : List UInt8) (hbs : ∀ b ∈ bs, Blank b) :
    Reads src d (Reader.unitVariant names) (bs ++ (spell p k (.str name) ++ s)) s i := by
  have hvariant : Reads src d (Reader.variantName names) ((Json.quote name).toUTF8.toList ++ s) s i := by
    unfold Reader.variantName
    refine (Reads.stringWith ?_ s (fun _ h => absurd h List.not_mem_nil) :
      Reads src d _ ([] ++ _) s i)
    simp [hi]
  rw [quote_bytes] at hvariant
  rw [spell, quote_bytes]
  simp only [List.cons_append, List.append_assoc] at hvariant ⊢
  rw [Reader.unitVariant]
  refine (Reads.skipWs hbs (noBlank_of_not_blank (by decide) _)).bind (Reads.source.bind ?_)
  split
  · exact Reads.peek.bind hvariant
  · exact Reads.peek.bind hvariant

end Scalars

section Containers

theorem Decodes.option {r : Reader α} {enc : α → Json} {ok : α → Prop} (h : Decodes r enc ok)
    (hnull : ∀ a, ok a → enc a ≠ .null) :
    Decodes (Reader.option r) (Json.ofOption enc) fun o => ∀ a ∈ o, ok a := by
  intro o ho
  cases o with
  | none =>
    refine ⟨rfl, fun src p k d bs s hbs _ _ => ?_⟩
    rw [Reader.option, Json.ofOption, null_bytes]
    refine (Reads.skipWs hbs (noBlank_of_not_blank (by decide) _)).bind (Reads.peek.bind ?_)
    refine (Reads.bump_cons 110).bind ?_
    rw [bytesOf_ull]
    exact (Reads.ident [117, 108, 108]).bind (Reads.pure _)
  | some a =>
    obtain ⟨hplain, hread⟩ := h a (ho a rfl)
    refine ⟨hplain, fun src p k d bs s hbs hs hd => ?_⟩
    obtain ⟨b, t, hspell, hopens⟩ := spell_opens hplain p k
    have hb : b ≠ 110 := fun hb => hnull a (ho a rfl) (spell_head_null hplain (hb ▸ hspell))
    have hr := hread src p k d [] s (by simp) hs hd
    rw [Json.ofOption]
    rw [hspell, List.cons_append] at hr ⊢
    rw [Reader.option]
    refine (Reads.skipWs hbs (hopens.noBlank _)).bind (Reads.peek.bind ?_)
    split
    · next heq => exact absurd (Option.some.inj heq) hb
    · exact (by simpa using hr : Reads src d r _ s a).map

theorem Reads.listItems {r : Reader α} {enc : α → Json} {ok : α → Prop} (h : Decodes r enc ok)
    (src : Source) (p : Bool) (k d : Nat) :
    ∀ (xs : List α), (∀ x ∈ xs, ok x) → (∀ x ∈ xs, nesting (enc x) < d) →
    ∀ (fuel : Nat) (first : Bool) (acc : List α) {bs : List UInt8} (s : List UInt8),
    (∀ b ∈ bs, Blank b) → xs.length < fuel →
    Reads src d (Reader.listItems r fuel first acc) (itemsFrom p k first (xs.map enc) ++ bs ++ 93 :: s)
      (93 :: s) (acc.reverse ++ xs)
  | [], _, _, fuel, first, acc, bs, s, hbs, hfuel => by
    obtain ⟨f, rfl⟩ : ∃ f, fuel = f + 1 := ⟨fuel - 1, by simp at hfuel; omega⟩
    rw [Reader.listItems]
    refine (Reads.nextItem_end first hbs s).bind ?_
    simpa using Reads.pure _
  | x :: xs, hok, hd, fuel, first, acc, bs, s, hbs, hfuel => by
    obtain ⟨f, rfl⟩ : ∃ f, fuel = f + 1 := ⟨fuel - 1, by simp at hfuel; omega⟩
    obtain ⟨hplain, hread⟩ := h x (hok x (List.mem_cons_self ..))
    obtain ⟨b, t, hspell, hopens⟩ := spell_opens hplain p k
    have hvalue := hread src p k d [] (itemsFrom p k false (xs.map enc) ++ bs ++ 93 :: s)
      (by simp) (ends_itemsFrom p k _ hbs 93 (Or.inl rfl) s) (hd x (List.mem_cons_self ..))
    have hrest := Reads.listItems h src p k d xs (fun x hx => hok x (List.mem_cons_of_mem _ hx))
      (fun x hx => hd x (List.mem_cons_of_mem _ hx)) f false (x :: acc) s hbs
      (by simp at hfuel; omega)
    rw [List.map_cons, itemsFrom_cons, Reader.listItems]
    have hnext : Reads src d (nextItem first)
        ((if first = true then [] else [44]) ++ (lead p k ++ spell p k (enc x) ++
          itemsFrom p k false (xs.map enc)) ++ bs ++ 93 :: s)
        (spell p k (enc x) ++ (itemsFrom p k false (xs.map enc) ++ bs ++ 93 :: s)) true := by
      rw [hspell]
      cases first
      · simpa using Reads.nextItem_next hopens p k
      · simpa using Reads.nextItem_first hopens p k
    refine hnext.bind ?_
    simp only [if_true]
    exact (by simpa using hvalue : Reads src d r _ _ x).bind (by simpa using hrest)

theorem Decodes.list {r : Reader α} {enc : α → Json} {ok : α → Prop} (h : Decodes r enc ok) :
    Decodes (Reader.list r) (fun xs => .arr (xs.map enc)) fun xs => ∀ x ∈ xs, ok x := by
  intro xs hok
  have hplain : plainItems (xs.map enc) = true := by
    rw [plainItems_iff]
    intro v hv
    obtain ⟨x, hx, rfl⟩ := List.mem_map.mp hv
    exact (h x (hok x hx)).1
  refine ⟨hplain, fun src p k d bs s hbs _ hd => ?_⟩
  simp only [nesting] at hd
  have hnest : ∀ x ∈ xs, nesting (enc x) < d - 1 := by
    have := (nestingItems_le_iff (xs.map enc) (d - 2)).mp (by omega)
    intro x hx
    have := this (enc x) (List.mem_map.mpr ⟨x, hx, rfl⟩)
    omega
  have hlen := length_le_itemsFrom p (k + 1) true (xs.map enc) hplain
  rw [spell_arr, Reader.list]
  refine Reads.placeFaults ((Reads.skipWs hbs (noBlank_of_not_blank (by decide) _)).bind
    (Reads.peek.bind ?_))
  refine Reads.nested ?_ (by omega) (by omega)
  refine (Reads.bump_cons 91).bind (Reads.get_bind fun _ _ => ?_)
  have hitems := Reads.listItems h src p (k + 1) (d - 1) xs hok hnest
    ((itemsFrom p (k + 1) true (xs.map enc) ++ (if xs.map enc = [] then [] else lead p k) ++
      93 :: s).length + 1) true [] s (closing_blank p k (xs.map enc = [])) (by simp at hlen ⊢; omega)
  exact Reads.thenClose (by simpa using hitems) (Reads.closeArray s)

end Containers

/-! ## Records -/

/-- The members written of a list of optional values, the absent ones left out. -/
def present (fields : List (String × Option Json)) : List (String × Json) :=
  fields.filterMap fun (k, v) => v.map (k, ·)

@[simp] theorem present_nil : present [] = [] := rfl

@[simp] theorem present_cons_some (key : String) (v : Json) (fields : List (String × Option Json)) :
    present ((key, some v) :: fields) = (key, v) :: present fields := rfl

@[simp] theorem present_cons_none (key : String) (fields : List (String × Option Json)) :
    present ((key, none) :: fields) = present fields := rfl

theorem mem_present {fields : List (String × Option Json)} {key : String} {v : Json}
    (h : (key, some v) ∈ fields) : (key, v) ∈ present fields :=
  List.mem_filterMap.mpr ⟨_, h, rfl⟩

namespace RecordFormat

/-- Every name a record's fields answer to, in order. -/
def keys (fields : List (RecordField α)) : List String := fields.flatMap fun f => f.name :: f.aliases

/-- The positions, counted from `i`, of the values that are written, last first. -/
def presentFrom : Nat → List (Option Json) → List Nat
  | _, [] => []
  | i, none :: vs => presentFrom (i + 1) vs
  | i, some _ :: vs => presentFrom (i + 1) vs ++ [i]

theorem lookup_go_name (k : String) :
    ∀ (pre : List (RecordField α)) (f : RecordField α) (post : List (RecordField α)) (i : Nat),
    k ∉ keys pre → k = f.name → lookup.go k i (pre ++ f :: post) = some (i + pre.length, f)
  | [], f, post, i, _, hk => by simp [lookup.go, hk]
  | g :: pre, f, post, i, hpre, hk => by
    simp only [keys, List.flatMap_cons, List.mem_append, List.mem_cons, not_or] at hpre
    have hrest := lookup_go_name k pre f post (i + 1) (by simpa [keys] using hpre.2) hk
    simp only [List.cons_append, lookup.go]
    rw [if_neg (by rintro (h | h) <;> simp_all), hrest]
    simp only [List.length_cons, Option.some.injEq, Prod.mk.injEq, and_true]
    omega

theorem lookup_go_none (k : String) :
    ∀ (fs : List (RecordField α)) (i : Nat), k ∉ keys fs → lookup.go k i fs = none
  | [], i, _ => rfl
  | f :: fs, i, hk => by
    simp only [keys, List.flatMap_cons, List.mem_append, List.mem_cons, not_or] at hk
    simp only [lookup.go]
    rw [if_neg (by rintro (h | h) <;> simp_all)]
    exact lookup_go_none k fs (i + 1) (by simpa [keys] using hk.2)

/-- The members written of fields named `names` whose values are `vs`, absent ones left out. -/
def fieldMembers (names : List String) (vs : List (Option Json)) : List (String × Json) :=
  present (names.zip vs)

end RecordFormat

/-- Reading the fields `fs` in turn from the written values `vs`, absent ones skipped, takes the
record being built from `a` to `b`. Only a field that is not required may be absent. -/
inductive FieldsRead (src : Source) (d : Nat) (p : Bool) (k : Nat) :
    List (RecordField α) → List (Option Json) → α → α → Prop
  | nil (a : α) : FieldsRead src d p k [] [] a a
  | absent {f : RecordField α} {fs : List (RecordField α)} {vs : List (Option Json)} {a b : α} :
      f.presence ≠ .required → FieldsRead src d p k fs vs a b →
      FieldsRead src d p k (f :: fs) (none :: vs) a b
  | present {f : RecordField α} {fs : List (RecordField α)} {v : Json} {vs : List (Option Json)}
      {a a' b : α} : v.plain → nesting v < d →
      (∀ bs s, (∀ c ∈ bs, Blank c) → Ends s → Reads src d (f.read a) (bs ++ (spell p k v ++ s)) s a') →
      FieldsRead src d p k fs vs a' b → FieldsRead src d p k (f :: fs) (some v :: vs) a b

namespace FieldsRead

variable {src : Source} {d : Nat} {p : Bool} {k : Nat}

theorem missing_none {fs : List (RecordField α)} {vs : List (Option Json)} {a b : α}
    (h : FieldsRead src d p k fs vs a b) :
    ∀ (i : Nat) (seen : List Nat), (∀ j ∈ RecordFormat.presentFrom i vs, j ∈ seen) →
      RecordFormat.missing?.go seen i fs = none := by
  induction h with
  | nil => intro i seen _; rfl
  | absent hpres _ ih =>
    intro i seen hseen
    simp only [RecordFormat.missing?.go, hpres, false_and, if_false]
    exact ih (i + 1) seen hseen
  | present _ _ _ _ ih =>
    intro i seen hseen
    simp only [RecordFormat.presentFrom, List.mem_append, List.mem_singleton] at hseen
    simp only [RecordFormat.missing?.go, hseen i (Or.inr rfl), not_true_eq_false, and_false,
      if_false]
    exact ih (i + 1) seen fun j hj => hseen j (Or.inl hj)

theorem plain {fs : List (RecordField α)} {vs : List (Option Json)} {a b : α}
    (h : FieldsRead src d p k fs vs a b) (names : List String) :
    plainMembers (RecordFormat.fieldMembers names vs) = true := by
  induction h generalizing names with
  | nil => cases names <;> rfl
  | absent _ _ ih =>
    cases names with
    | nil => rfl
    | cons n names => exact ih names
  | present hv _ _ _ ih =>
    cases names with
    | nil => rfl
    | cons n names =>
      simp only [RecordFormat.fieldMembers, List.zip_cons_cons, present_cons_some, plainMembers, hv, Bool.true_and]
      exact ih names

theorem read {f : RecordField α} {fs : List (RecordField α)} {vs : List (Option Json)} {a b : α}
    {r : Reader β} {enc : β → Json} {ok : β → Prop} {set : α → β → α}
    (hread : ∀ a, f.read a = (do let x ← r; Pure.pure (set a x))) (h : Decodes r enc ok)
    {x : β} (hx : ok x) (hd : nesting (enc x) < d)
    (hrest : FieldsRead src d p k fs vs (set a x) b) :
    FieldsRead src d p k (f :: fs) (some (enc x) :: vs) a b := by
  obtain ⟨hplain, hdecode⟩ := h x hx
  refine .present hplain hd (fun bs s hbs hs => ?_) hrest
  rw [hread]
  exact (hdecode src p k d bs s hbs hs hd).bind (Reads.pure _)

/-- An optional field: written only when present, read as `none` when left out. -/
theorem option {f : RecordField α} {fs : List (RecordField α)} {vs : List (Option Json)} {a b : α}
    {r : Reader β} {enc : β → Json} {ok : β → Prop} {set : α → Option β → α}
    (hread : ∀ a, f.read a = (do let x ← Reader.option r; Pure.pure (set a x)))
    (hpresence : f.presence ≠ .required) (h : Decodes r enc ok) (hnull : ∀ x, ok x → enc x ≠ .null)
    {o : Option β} (ho : ∀ x ∈ o, ok x) (hd : ∀ x ∈ o, nesting (enc x) < d)
    (hnone : set a none = a) (hrest : FieldsRead src d p k fs vs (set a o) b) :
    FieldsRead src d p k (f :: fs) (o.map enc :: vs) a b := by
  cases o with
  | none => exact .absent hpresence (hnone ▸ hrest)
  | some x =>
    have hsome := read hread (Decodes.option h hnull) (x := some x) ho (hd x rfl) hrest
    simpa [Json.ofOption] using hsome

end FieldsRead

theorem RecordFormat.name_not_mem_keys {pre : List (RecordField α)} {f : RecordField α}
    {post : List (RecordField α)} (hkeys : (RecordFormat.keys (pre ++ f :: post)).Nodup) :
    f.name ∉ RecordFormat.keys pre := by
  intro hmem
  simp only [RecordFormat.keys, List.flatMap_append, List.flatMap_cons] at hkeys
  exact (List.nodup_append.mp hkeys).2.2 _ hmem _ (by simp) rfl

/-- The known members of a record, in declaration order, read into the record being built. -/
theorem Reads.recordMembers {src : Source} {d : Nat} {p : Bool} {k : Nat} {fmt : RecordFormat α}
    (hkeys : (RecordFormat.keys fmt.fields).Nodup) {fs : List (RecordField α)}
    {vs : List (Option Json)} {a b : α} (h : FieldsRead src d p k fs vs a b) :
    ∀ (pre : List (RecordField α)), fmt.fields = pre ++ fs →
    ∀ (first : Bool) (seen : List Nat) (fuel : Nat) {bs : List UInt8} (s : List UInt8),
    (∀ j ∈ seen, j < pre.length) → (∀ c ∈ bs, Blank c) →
    (RecordFormat.fieldMembers (fs.map (·.name)) vs).length < fuel →
    Reads src d (Reader.recordMembers fmt fuel first seen a)
      (membersFrom p k first (RecordFormat.fieldMembers (fs.map (·.name)) vs) ++ bs ++ 125 :: s)
      (125 :: s) (b, RecordFormat.presentFrom pre.length vs ++ seen) := by
  induction h with
  | nil a =>
    intro pre _ first seen fuel bs s _ hbs hfuel
    obtain ⟨f, rfl⟩ : ∃ f, fuel = f + 1 := ⟨fuel - 1, by simp at hfuel; omega⟩
    rw [Reader.recordMembers]
    exact (Reads.nextKey_end first hbs s).bind (Reads.pure _)
  | @absent f fs vs a b _ _ ih =>
    intro pre hpre first seen fuel bs s hseen hbs hfuel
    have := ih (pre ++ [f]) (by simp [hpre]) first seen fuel s
      (fun j hj => by have := hseen j hj; simp; omega) hbs (by simpa [RecordFormat.fieldMembers] using hfuel)
    simpa [RecordFormat.fieldMembers, RecordFormat.presentFrom] using this
  | @present f fs v vs a a' b _ _ hread _ ih =>
    intro pre hpre first seen fuel bs s hseen hbs hfuel
    obtain ⟨fuel, rfl⟩ : ∃ f, fuel = f + 1 := ⟨fuel - 1, by simp at hfuel; omega⟩
    have hlookup : fmt.lookup f.name = some (pre.length, f) := by
      have hname := RecordFormat.name_not_mem_keys (hpre ▸ hkeys)
      simpa [RecordFormat.lookup, hpre] using
        RecordFormat.lookup_go_name f.name pre f fs 0 hname rfl
    have hnew : pre.length ∉ seen := fun hj => Nat.lt_irrefl _ (hseen _ hj)
    have hrest := ih (pre ++ [f]) (by simp [hpre]) false (pre.length :: seen) fuel s
      (fun j hj => by
        simp only [List.mem_cons] at hj
        rcases hj with rfl | hj
        · simp
        · have := hseen j hj; simp; omega) hbs (by simp [RecordFormat.fieldMembers] at hfuel ⊢; omega)
    simp only [List.map_cons, RecordFormat.fieldMembers, List.zip_cons_cons, present_cons_some]
    rw [Reader.recordMembers]
    refine (Reads.nextKey_member first p k f.name v _ bs s).bind ?_
    simp only [hlookup, hnew, if_false]
    refine (Reads.colon _).bind ((hread (gap p) _ (gap_blank p)
      (ends_membersFrom p k _ hbs 125 (Or.inr rfl) s)).bind ?_)
    simpa [RecordFormat.presentFrom, RecordFormat.fieldMembers] using hrest

theorem Reads.checkMissing {src : Source} {d : Nat} {fmt : RecordFormat α} {seen : List Nat}
    (h : fmt.missing? seen = none) (t : List UInt8) :
    Reads src d (Reader.checkMissing fmt seen) t t () := by
  rw [Reader.checkMissing, h]
  exact Reads.pure ()

/-- A record written as an object of its fields in declaration order is read back. -/
theorem Reads.record {src : Source} {d : Nat} {p : Bool} {k : Nat} {fmt : RecordFormat α}
    (hkeys : (RecordFormat.keys fmt.fields).Nodup) {vs : List (Option Json)} {b : α}
    (h : FieldsRead src (d - 1) p (k + 1) fmt.fields vs fmt.init b) (hd : 2 ≤ d)
    {bs : List UInt8} (s : List UInt8) (hbs : ∀ c ∈ bs, Blank c) :
    Reads src d (Reader.record fmt)
      (bs ++ (spell p k (.obj (RecordFormat.fieldMembers (fmt.fields.map (·.name)) vs)) ++ s)) s b := by
  have hmissing : fmt.missing? (RecordFormat.presentFrom 0 vs ++ []) = none :=
    h.missing_none 0 _ fun j hj => by simpa using hj
  rw [spell_obj, Reader.record]
  refine Reads.placeFaults ((Reads.skipWs hbs (noBlank_of_not_blank (by decide) _)).bind
    (Reads.peek.bind ?_))
  refine Reads.nested ?_ (by omega) (by omega)
  refine (Reads.bump_cons 123).bind (Reads.get_bind fun _ _ => ?_)
  have hlen := length_le_membersFrom p (k + 1) true
    (RecordFormat.fieldMembers (fmt.fields.map (·.name)) vs)
  dsimp only
  refine Reads.thenClose ((Reads.recordMembers hkeys h [] rfl true [] _ s (by simp)
    (closing_blank p k (RecordFormat.fieldMembers (fmt.fields.map (·.name)) vs = [])) ?_).bind
      ((Reads.checkMissing hmissing _).bind (Reads.pure b))) (Reads.closeObject s)
  simp only [List.length_append, List.length_cons] at hlen ⊢
  omega

section Flat

variable {src : Source} {d : Nat} {p : Bool} {k : Nat} {fmt : RecordFormat α}

/-- Members a record does not know, each plain and within the budget. -/
def Unknown (fmt : RecordFormat α) (d : Nat) (xs : List (String × Json)) : Prop :=
  ∀ m ∈ xs, m.1 ∉ RecordFormat.keys fmt.fields ∧ m.2.plain ∧ nesting m.2 < d

theorem Reads.flatMembers_unknown :
    ∀ (xs : List (String × Json)), Unknown fmt d xs →
    ∀ (fuel : Nat) (first : Bool) (seen : List Nat) (held : List (String × Json)) (a : α)
      {bs : List UInt8} (s : List UInt8), (∀ c ∈ bs, Blank c) → xs.length < fuel →
    Reads src d (Reader.flatMembers fmt fuel first seen held a)
      (membersFrom p k first xs ++ bs ++ 125 :: s) (125 :: s) (a, seen, held.reverse ++ xs)
  | [], _, fuel, first, seen, held, a, bs, s, hbs, hfuel => by
    obtain ⟨f, rfl⟩ : ∃ f, fuel = f + 1 := ⟨fuel - 1, by simp at hfuel; omega⟩
    rw [Reader.flatMembers]
    exact (Reads.nextKey_end first hbs s).bind (by simpa using Reads.pure _)
  | (key, v) :: xs, hxs, fuel, first, seen, held, a, bs, s, hbs, hfuel => by
    obtain ⟨f, rfl⟩ : ∃ f, fuel = f + 1 := ⟨fuel - 1, by simp at hfuel; omega⟩
    obtain ⟨hkey, hplain, hnest⟩ := hxs (key, v) (List.mem_cons_self ..)
    have hlookup : fmt.lookup key = none := RecordFormat.lookup_go_none key fmt.fields 0 hkey
    have hrest := Reads.flatMembers_unknown xs (fun m hm => hxs m (List.mem_cons_of_mem _ hm)) f
      false seen ((key, v) :: held) a s hbs (by simp at hfuel; omega)
    rw [Reader.flatMembers]
    refine (Reads.nextKey_member first p k key v xs bs s).bind ?_
    simp only [hlookup]
    refine (Reads.colon _).bind ((Reads.anyValue hplain p k hnest (gap_blank p)
      (ends_membersFrom p k xs hbs 125 (Or.inr rfl) s)).bind ?_)
    simpa using hrest

/-- The known members of a flat record, in declaration order, then the members it does not
know, held back. -/
theorem Reads.flatMembers_fields (hkeys : (RecordFormat.keys fmt.fields).Nodup)
    {xs : List (String × Json)} (hxs : Unknown fmt d xs) {fs : List (RecordField α)}
    {vs : List (Option Json)} {a b : α} (h : FieldsRead src d p k fs vs a b) :
    ∀ (pre : List (RecordField α)), fmt.fields = pre ++ fs →
    ∀ (first : Bool) (seen : List Nat) (held : List (String × Json)) (fuel : Nat) {bs : List UInt8}
      (s : List UInt8), (∀ j ∈ seen, j < pre.length) → (∀ c ∈ bs, Blank c) →
    (RecordFormat.fieldMembers (fs.map (·.name)) vs ++ xs).length < fuel →
    Reads src d (Reader.flatMembers fmt fuel first seen held a)
      (membersFrom p k first (RecordFormat.fieldMembers (fs.map (·.name)) vs ++ xs) ++ bs ++ 125 :: s)
      (125 :: s) (b, RecordFormat.presentFrom pre.length vs ++ seen, held.reverse ++ xs) := by
  induction h with
  | nil a =>
    intro pre _ first seen held fuel bs s _ hbs hfuel
    simpa [RecordFormat.fieldMembers, RecordFormat.presentFrom] using
      Reads.flatMembers_unknown xs hxs fuel first seen held a s hbs
        (by simpa [RecordFormat.fieldMembers] using hfuel)
  | @absent f fs vs a b _ _ ih =>
    intro pre hpre first seen held fuel bs s hseen hbs hfuel
    have := ih (pre ++ [f]) (by simp [hpre]) first seen held fuel s
      (fun j hj => by have := hseen j hj; simp; omega) hbs
      (by simpa [RecordFormat.fieldMembers] using hfuel)
    simpa [RecordFormat.fieldMembers, RecordFormat.presentFrom] using this
  | @present f fs v vs a a' b _ _ hread _ ih =>
    intro pre hpre first seen held fuel bs s hseen hbs hfuel
    obtain ⟨fuel, rfl⟩ : ∃ f, fuel = f + 1 := ⟨fuel - 1, by simp at hfuel; omega⟩
    have hlookup : fmt.lookup f.name = some (pre.length, f) := by
      have hname := RecordFormat.name_not_mem_keys (hpre ▸ hkeys)
      simpa [RecordFormat.lookup, hpre] using
        RecordFormat.lookup_go_name f.name pre f fs 0 hname rfl
    have hnew : pre.length ∉ seen := fun hj => Nat.lt_irrefl _ (hseen _ hj)
    have hrest := ih (pre ++ [f]) (by simp [hpre]) false (pre.length :: seen) held fuel s
      (fun j hj => by
        simp only [List.mem_cons] at hj
        rcases hj with rfl | hj
        · simp
        · have := hseen j hj; simp; omega) hbs
      (by simp [RecordFormat.fieldMembers] at hfuel ⊢; omega)
    simp only [List.map_cons, RecordFormat.fieldMembers, List.zip_cons_cons, present_cons_some, List.cons_append]
    rw [Reader.flatMembers]
    refine (Reads.nextKey_member first p k f.name v _ bs s).bind ?_
    simp only [hlookup, hnew, if_false]
    refine (Reads.colon _).bind ((hread (gap p) _ (gap_blank p)
      (ends_membersFrom p k _ hbs 125 (Or.inr rfl) s)).bind ?_)
    simpa [RecordFormat.presentFrom, RecordFormat.fieldMembers] using hrest

/-- A record that holds back the members it does not know, written as its known fields in
declaration order and then those members, is read back and completed from them. -/
theorem Reads.flatRecord (hkeys : (RecordFormat.keys fmt.fields).Nodup)
    {xs : List (String × Json)} (hxs : Unknown fmt (d - 1) xs) {vs : List (Option Json)} {b c : α}
    (h : FieldsRead src (d - 1) p (k + 1) fmt.fields vs fmt.init b)
    {complete : α → List (String × Json) → Reader α}
    (hcomplete : ∀ t, Reads src (d - 1) (complete b xs) t t c) (hd : 2 ≤ d)
    {bs : List UInt8} (s : List UInt8) (hbs : ∀ c ∈ bs, Blank c) :
    Reads src d (Reader.flatRecord fmt complete)
      (bs ++ (spell p k (.obj (RecordFormat.fieldMembers (fmt.fields.map (·.name)) vs ++ xs)) ++ s))
      s c := by
  have hmissing : fmt.missing? (RecordFormat.presentFrom 0 vs ++ []) = none :=
    h.missing_none 0 _ fun j hj => by simpa using hj
  rw [spell_obj, Reader.flatRecord]
  refine Reads.placeFaults ((Reads.skipWs hbs (noBlank_of_not_blank (by decide) _)).bind
    (Reads.peek.bind ?_))
  refine Reads.nested ?_ (by omega) (by omega)
  refine (Reads.bump_cons 123).bind (Reads.get_bind fun _ _ => ?_)
  have hlen := length_le_membersFrom p (k + 1) true
    (RecordFormat.fieldMembers (fmt.fields.map (·.name)) vs ++ xs)
  dsimp only
  refine Reads.thenClose ((Reads.flatMembers_fields hkeys hxs h [] rfl true [] [] _ s (by simp)
    (closing_blank p k _) ?_).bind ((Reads.checkMissing hmissing _).bind ?_)) (Reads.closeObject s)
  · simp only [List.length_append, List.length_cons] at hlen ⊢
    omega
  · simpa using hcomplete _

end Flat

/-- A record whose writer gives its fields in declaration order decodes whatever its fields
decode. -/
theorem Decodes.record {fmt : RecordFormat α} (hkeys : (RecordFormat.keys fmt.fields).Nodup)
    {enc : α → Json} {ok : α → Prop} (vals : α → List (Option Json))
    (henc : ∀ a, enc a = .obj (RecordFormat.fieldMembers (fmt.fields.map (·.name)) (vals a)))
    (hfields : ∀ a, ok a → ∀ (src : Source) (p : Bool) (k d : Nat),
      (∀ m ∈ RecordFormat.fieldMembers (fmt.fields.map (·.name)) (vals a), nesting m.2 < d) →
      FieldsRead src d p k fmt.fields (vals a) fmt.init a) :
    Decodes (Reader.record fmt) enc ok := by
  intro a ha
  have hbound : ∀ n, nesting (enc a) ≤ n + 1 →
      ∀ m ∈ RecordFormat.fieldMembers (fmt.fields.map (·.name)) (vals a), nesting m.2 < n + 1 := by
    intro n hn m hm
    rw [henc, nesting] at hn
    have := (nestingMembers_le_iff _ n).mp (by omega) m hm
    omega
  refine ⟨?_, fun src p k d bs s hbs _ hd => ?_⟩
  · rw [henc]
    exact (hfields a ha .text false 0 (nesting (enc a) + 1) (hbound _ (by omega))).plain _
  · have h2 : 2 ≤ d := by rw [henc, nesting] at hd; omega
    have hfs := hfields a ha src p (k + 1) (d - 1) (by
      have := hbound (d - 2) (by omega)
      intro m hm
      have := this m hm
      omega)
    rw [henc]
    exact Reads.record hkeys hfs h2 s hbs

theorem nesting_field_lt {names : List String} {vs : List (Option Json)} {d : Nat}
    (hd : ∀ m ∈ RecordFormat.fieldMembers names vs, nesting m.2 < d) (key : String) {v : Json}
    (h : (key, some v) ∈ names.zip vs) : nesting v < d :=
  hd (key, v) (mem_present h)

/-- A flat record: its own fields in declaration order, then members it holds back and
completes itself from. -/
theorem Decodes.flatRecord {fmt : RecordFormat α} (hkeys : (RecordFormat.keys fmt.fields).Nodup)
    {complete : α → List (String × Json) → Reader α} {enc : α → Json} {ok : α → Prop}
    (vals : α → List (Option Json)) (held : α → List (String × Json))
    (henc : ∀ a, enc a =
      .obj (RecordFormat.fieldMembers (fmt.fields.map (·.name)) (vals a) ++ held a))
    (hheld : ∀ a, ok a → ∀ m ∈ held a, m.1 ∉ RecordFormat.keys fmt.fields ∧ m.2.plain)
    (hfields : ∀ a, ok a → ∀ (src : Source) (p : Bool) (k d : Nat),
      (∀ m ∈ RecordFormat.fieldMembers (fmt.fields.map (·.name)) (vals a), nesting m.2 < d) →
      ∃ b, FieldsRead src d p k fmt.fields (vals a) fmt.init b ∧
        ∀ t, Reads src d (complete b (held a)) t t a) :
    Decodes (Reader.flatRecord fmt complete) enc ok := by
  intro a ha
  have hbound : ∀ n, nesting (enc a) ≤ n + 1 → ∀ m ∈ RecordFormat.fieldMembers
      (fmt.fields.map (·.name)) (vals a) ++ held a, nesting m.2 < n + 1 := by
    intro n hn m hm
    rw [henc, nesting] at hn
    have := (nestingMembers_le_iff _ n).mp (by omega) m hm
    omega
  have hown : ∀ n, nesting (enc a) ≤ n + 1 → ∀ m ∈ RecordFormat.fieldMembers
      (fmt.fields.map (·.name)) (vals a), nesting m.2 < n + 1 :=
    fun n hn m hm => hbound n hn m (List.mem_append_left _ hm)
  refine ⟨?_, fun src p k d bs s hbs _ hd => ?_⟩
  · obtain ⟨b, hfs, _⟩ := hfields a ha .text false 0 (nesting (enc a) + 1) (hown _ (by omega))
    rw [henc, plain, plainMembers_iff]
    intro m hm
    rcases List.mem_append.mp hm with hm | hm
    · exact (plainMembers_iff _).mp (hfs.plain _) m hm
    · exact (hheld a ha m hm).2
  · have h2 : 2 ≤ d := by rw [henc, nesting] at hd; omega
    obtain ⟨b, hfs, hcomplete⟩ := hfields a ha src p (k + 1) (d - 1) (by
      intro m hm
      have := hown (d - 2) (by omega) m hm
      omega)
    have hxs : Unknown fmt (d - 1) (held a) := by
      intro m hm
      have := hbound (d - 2) (by omega) m (List.mem_append_right _ hm)
      exact ⟨(hheld a ha m hm).1, (hheld a ha m hm).2, by omega⟩
    rw [henc]
    exact Reads.flatRecord hkeys hxs hfs hcomplete h2 s hbs

/-- A reader run to the end of the input, blanks after what it reads allowed. -/
theorem Reads.runOn {src : Source} {r : Reader α} {bytes rest : List UInt8} {a : α}
    (h : Reads src 128 r bytes rest a) (hrest : ∀ b ∈ rest, Blank b) : r.runOn bytes src = .ok a := by
  have hblanks : Reads src 128 Reader.skipWs rest [] () := by
    have : Reads src 128 Reader.skipWs (rest ++ []) [] () := Reads.skipWs hrest (by simp [NoBlank])
    rwa [List.append_nil] at this
  have hfinish : Reads src 128 Reader.finish rest [] () := by
    rw [Reader.finish]
    exact hblanks.bind (Reads.peek.bind (Reads.pure ()))
  obtain ⟨_, _, hrun⟩ := (h.bind (f := fun a => do Reader.finish; Pure.pure a)
    (hfinish.bind (Reads.pure a))) 1 0
  rw [Reader.runOn, Cursor.start, hrun]

/-- Held-back members read again from their compact text give what the reader reads there. -/
theorem Reads.buffered {src : Source} {d : Nat} {r : Reader α} {v : Json} {a : α}
    (h : Reads .buffered 128 r (spell false 0 v ++ []) [] a) (t : List UInt8) :
    Reads src d (Reader.buffered r v) t t a := by
  rw [Reader.buffered, Reader.bytesOf, compact_bytes 0, ← List.append_nil (spell false 0 v),
    Reads.runOn h (by simp)]
  exact Reads.pure a

theorem selectVariant_go_rest (tag : String) (names : List String) (i : Nat) :
    ∀ (rest acc : List (String × Json)), (∀ m ∈ rest, m.1 ≠ tag) →
      selectVariant.go tag names rest (some i) acc = .ok (i, acc.reverse ++ rest)
  | [], acc, _ => by simp [selectVariant.go]
  | (key, v) :: rest, acc, hrest => by
    have hkey : key ≠ tag := hrest (key, v) (List.mem_cons_self ..)
    rw [selectVariant.go, if_neg hkey,
      selectVariant_go_rest tag names i rest _ fun m hm => hrest m (List.mem_cons_of_mem _ hm)]
    simp

/-- Held-back members led by the tag name their variant; the others are its fields. -/
theorem selectVariant_tagged {tag name : String} {names : List String} {i : Nat}
    (hi : indexOf? names name = some i) {rest : List (String × Json)}
    (hrest : ∀ m ∈ rest, m.1 ≠ tag) :
    selectVariant tag names ((tag, .str name) :: rest) = .ok (i, rest) := by
  rw [selectVariant, selectVariant.go, if_pos rfl]
  simp only [variantOf, hi]
  simpa using selectVariant_go_rest tag names i rest [] hrest


end RunJournal.Json

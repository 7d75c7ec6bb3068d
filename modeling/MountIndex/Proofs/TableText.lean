import MountIndex.Proofs.Lines
import MountIndex.Proofs.Utf8

/-!
# Reading back a written mount table

A mount table is written one line per entry: the mount ID, the parent ID and `major:minor` in
decimal, the root and the mount point, the options, the optional fields, a lone `-`, the
filesystem type, the source and, when there are any, the super options. Fields are separated
by runs of spaces and tabs, and blanks may follow the last one. The root, the mount point and
the source write each space, tab, line feed, carriage return and backslash as a backslash and
three octal digits per UTF-8 byte, and may write any other character so too. A line ends in
`\n` or `\r\n`, and lines of white space may stand anywhere.

`Layout` is one way of writing an entry's line and `Written` one way of writing a whole table.
`parse_written` proves that reading any such text gives back the entries, whenever their fields
can be written at all (`Entry.Representable`). The proof reads a line field by field: one lemma
per reader says what it takes from a written field and what it leaves, and `unescape_escaped`
undoes the escapes through the UTF-8 bytes.
-/

namespace MountIndex.Table

/-! ## Writing fields -/

/-- A character that neither separates fields nor ends a line. -/
def Inert (c : Char) : Prop := c ≠ ' ' ∧ c ≠ '\t' ∧ c ≠ '\r' ∧ c ≠ '\n'

/-- A run of blanks: one or more spaces and tabs. -/
def Blanks (s : List Char) : Prop := s ≠ [] ∧ ∀ c ∈ s, isBlank c = true

/-- A decimal numeral of `n`; leading zeros are allowed. -/
def Numeral (ds : List Char) (n : Nat) : Prop :=
  ds ≠ [] ∧ (∀ d ∈ ds, d.isDigit = true) ∧ digitsValue ds = n

/-- A field written as it is: not empty, with no space, tab, carriage return or line feed. -/
def Plain (s : String) : Prop := s ≠ "" ∧ ∀ c ∈ s.toList, Inert c

instance : DecidablePred Inert := fun _ => inferInstanceAs (Decidable (_ ∧ _ ∧ _ ∧ _))

-- The checks over the characters of a field run through the field, whatever other instance
-- deciding a statement about every character is in scope.
instance (s : List Char) : Decidable (Blanks s) :=
  @instDecidableAnd _ _ _ (List.decidableBAll _ s)

instance (ds : List Char) (n : Nat) : Decidable (Numeral ds n) :=
  @instDecidableAnd _ _ _ (@instDecidableAnd _ _ (List.decidableBAll _ ds) _)

instance (s : String) : Decidable (Plain s) :=
  @instDecidableAnd _ _ _ (List.decidableBAll Inert s.toList)

/-- The characters a path field must escape: space, tab, line feed, carriage return and
backslash. -/
def mustEscape (c : Char) : Bool :=
  c == ' ' || c == '\t' || c == '\n' || c == '\r' || c == '\\'

/-- A byte as a backslash and three octal digits. -/
def octal (b : UInt8) : List Char :=
  ['\\', Char.ofNat (48 + b.toNat / 64), Char.ofNat (48 + b.toNat / 8 % 8),
    Char.ofNat (48 + b.toNat % 8)]

/-- `Escaped s t`: `t` writes the path field `s`, each character as itself when it need not be
escaped, or as the octal escapes of its UTF-8 bytes. -/
inductive Escaped : List Char → List Char → Prop
  | nil : Escaped [] []
  | plain {c : Char} {s t : List Char} : mustEscape c = false → Escaped s t → Escaped (c :: s) (c :: t)
  | escape {c : Char} {s t : List Char} :
      Escaped s t → Escaped (c :: s) ((String.utf8EncodeChar c).flatMap octal ++ t)

/-- What an entry needs to be written at all: numbers that fit in 32 bits, paths that are not
empty, options, filesystem type and optional fields written as they are, no optional field a
lone `-`, and super options that are empty or written as they are. -/
structure Entry.Representable (e : Entry) : Prop where
  mountId : e.mountId < 4294967296
  parentId : e.parentId < 4294967296
  major : e.major < 4294967296
  minor : e.minor < 4294967296
  root : e.root ≠ ""
  mountPoint : e.mountPoint ≠ ""
  source : e.source ≠ ""
  options : Plain e.options
  fsType : Plain e.fsType
  optionalFields : ∀ f ∈ e.optionalFields, Plain f ∧ f ≠ "-"
  superOptions : e.superOptions = "" ∨ Plain e.superOptions

/-! ## Characters of written fields -/

theorem isBlank_eq_false {c : Char} (h : Inert c) : isBlank c = false := by
  simp [isBlank, h.1, h.2.1]

theorem inert_of_isDigit {c : Char} (h : c.isDigit = true) : Inert c := by
  refine ⟨?_, ?_, ?_, ?_⟩ <;> rintro rfl <;> simp [Char.isDigit] at h

theorem isDigit_of_isBlank {c : Char} (h : isBlank c = true) : c.isDigit = false := by
  simp only [isBlank, Bool.or_eq_true, decide_eq_true_eq] at h
  rcases h with rfl | rfl <;> rfl

theorem inert_of_mustEscape {c : Char} (h : mustEscape c = false) : Inert c := by
  simp only [mustEscape, Bool.or_eq_false_iff, beq_eq_false_iff_ne] at h
  exact ⟨h.1.1.1.1, h.1.1.1.2, h.1.2, h.1.1.2⟩

theorem toNat_ofNat_digit {k : Nat} (hk : k < 10) : (Char.ofNat (48 + k)).toNat = 48 + k := by
  rw [Char.ofNat, dif_pos (by unfold Nat.isValidChar; omega)]
  rfl

theorem isDigit_ofNat {k : Nat} (hk : k < 10) : (Char.ofNat (48 + k)).isDigit = true := by
  have h : (Char.ofNat (48 + k)).val.toNat = 48 + k := toNat_ofNat_digit hk
  have h0 : '0'.val.toNat = 48 := rfl
  have h9 : '9'.val.toNat = 57 := rfl
  simp only [Char.isDigit, Bool.and_eq_true, decide_eq_true_eq, UInt32.le_iff_toNat_le, h, h0, h9]
  omega

theorem inert_of_mem_octal {b : UInt8} {x : Char} (hx : x ∈ octal b) : Inert x := by
  have hb : b.toNat < 256 := b.toNat_lt
  simp only [octal, List.mem_cons, List.not_mem_nil, or_false] at hx
  rcases hx with rfl | rfl | rfl | rfl
  · exact ⟨by decide, by decide, by decide, by decide⟩
  all_goals exact inert_of_isDigit (isDigit_ofNat (by omega))

theorem Escaped.inert {s t : List Char} (h : Escaped s t) : ∀ c ∈ t, Inert c := by
  induction h with
  | nil => exact fun _ hc => absurd hc List.not_mem_nil
  | plain hc _ ih =>
    intro x hx
    rcases List.mem_cons.1 hx with rfl | hx
    · exact inert_of_mustEscape hc
    · exact ih x hx
  | escape _ ih =>
    intro x hx
    rcases List.mem_append.1 hx with hx | hx
    · obtain ⟨b, -, hb⟩ := List.mem_flatMap.1 hx
      exact inert_of_mem_octal hb
    · exact ih x hx

theorem Escaped.ne_nil {s t : List Char} (h : Escaped s t) (hs : s ≠ []) : t ≠ [] := by
  cases h with
  | nil => exact absurd rfl hs
  | plain => exact List.cons_ne_nil _ _
  | escape =>
    rename_i c _ _ _
    obtain ⟨b, bs, hb⟩ := List.exists_cons_of_ne_nil (String.utf8EncodeChar_ne_nil (c := c))
    rw [hb, List.flatMap_cons]
    simp [octal]

theorem Escaped.ne_nil_of_ne_empty {s : String} {t : List Char} (h : Escaped s.toList t)
    (hs : s ≠ "") : t ≠ [] :=
  h.ne_nil fun hnil => hs (String.toList_eq_nil_iff.1 hnil)

-- A path with nothing to escape may be written as it is.
theorem Escaped.self {s : List Char} (h : ∀ c ∈ s, mustEscape c = false) : Escaped s s := by
  induction s with
  | nil => exact .nil
  | cons c s ih =>
    exact .plain (h c List.mem_cons_self) (ih fun x hx => h x (List.mem_cons_of_mem _ hx))

theorem Escaped.append {s₁ s₂ t₁ t₂ : List Char} (h₁ : Escaped s₁ t₁) (h₂ : Escaped s₂ t₂) :
    Escaped (s₁ ++ s₂) (t₁ ++ t₂) := by
  induction h₁ with
  | nil => exact h₂
  | plain hc _ ih => exact .plain hc ih
  | escape _ ih =>
    rw [List.append_assoc]
    exact .escape ih

/-! ## Undoing the escapes -/

theorem utf8EncodeChar_of_ascii {c : Char} (h : c.val.toNat ≤ 0x7f) :
    String.utf8EncodeChar c = [UInt8.ofNat c.val.toNat] := by
  unfold String.utf8EncodeChar
  exact if_pos h

-- A character other than the backslash has no backslash byte: an ASCII character is its own
-- byte, and the bytes of any other are all at least 0x80.
theorem utf8EncodeChar_ne_backslash {c : Char} (hc : c ≠ '\\') :
    ∀ x ∈ String.utf8EncodeChar c, x ≠ 92 := by
  have hv : c.val.toNat ≠ 92 := fun h => hc (Char.ext (UInt32.toNat_inj.1 h))
  intro x hx hx92
  have h92 : x.toNat = 92 := by rw [hx92]; rfl
  unfold String.utf8EncodeChar at hx
  dsimp only at hx
  split at hx
  · rw [List.mem_singleton.1 hx, Text.Utf8.toNat_ofNat_of_lt (by omega)] at h92
    exact hv h92
  split at hx
  · simp only [List.mem_cons, List.not_mem_nil, or_false] at hx
    rcases hx with rfl | rfl <;> rw [Text.Utf8.toNat_ofNat_of_lt (by omega)] at h92 <;> omega
  split at hx
  · simp only [List.mem_cons, List.not_mem_nil, or_false] at hx
    rcases hx with rfl | rfl | rfl <;> rw [Text.Utf8.toNat_ofNat_of_lt (by omega)] at h92 <;>
      omega
  · simp only [List.mem_cons, List.not_mem_nil, or_false] at hx
    rcases hx with rfl | rfl | rfl | rfl <;> rw [Text.Utf8.toNat_ofNat_of_lt (by omega)] at h92 <;>
      omega

theorem unescapeBytes_append_of_ne {xs : List UInt8} (rest : List UInt8) (h : ∀ x ∈ xs, x ≠ 92) :
    unescapeBytes (xs ++ rest) = xs ++ unescapeBytes rest := by
  induction xs with
  | nil => rfl
  | cons x xs ih =>
    rw [List.cons_append, unescapeBytes.eq_2 _ _ fun _ _ _ _ hx _ => h x List.mem_cons_self hx,
      ih fun y hy => h y (List.mem_cons_of_mem _ hy), List.cons_append]

-- The bytes of an escape are a backslash and three octal digits, which read back as the byte.
theorem unescapeBytes_octal (b : UInt8) (rest : List UInt8) :
    unescapeBytes ((octal b).flatMap String.utf8EncodeChar ++ rest) = b :: unescapeBytes rest := by
  have hb : b.toNat < 256 := b.toNat_lt
  have hd : ∀ k, k < 10 → String.utf8EncodeChar (Char.ofNat (48 + k)) = [UInt8.ofNat (48 + k)] := by
    intro k hk
    have hv : (Char.ofNat (48 + k)).val.toNat = 48 + k := toNat_ofNat_digit hk
    rw [utf8EncodeChar_of_ascii (by omega), hv]
  have hbs : String.utf8EncodeChar '\\' = [92] := by decide
  have hdigit : ∀ k, k < 8 → isOctal (UInt8.ofNat (48 + k)) = true := fun k hk => by
    simp only [isOctal, UInt8.le_iff_toNat_le, Text.Utf8.toNat_ofNat_of_lt (by omega : 48 + k < 256),
      UInt8.reduceToNat, Bool.and_eq_true, decide_eq_true_eq]
    omega
  have hvalue : octalValue (UInt8.ofNat (48 + b.toNat / 64)) (UInt8.ofNat (48 + b.toNat / 8 % 8))
      (UInt8.ofNat (48 + b.toNat % 8)) = b.toNat := by
    simp only [octalValue, Text.Utf8.toNat_ofNat_of_lt (by omega : 48 + b.toNat / 64 < 256),
      Text.Utf8.toNat_ofNat_of_lt (by omega : 48 + b.toNat / 8 % 8 < 256),
      Text.Utf8.toNat_ofNat_of_lt (by omega : 48 + b.toNat % 8 < 256)]
    omega
  simp only [octal, List.flatMap_cons, List.flatMap_nil, List.append_nil, hbs,
    hd _ (by omega : b.toNat / 64 < 10), hd _ (by omega : b.toNat / 8 % 8 < 10),
    hd _ (by omega : b.toNat % 8 < 10), List.nil_append, List.cons_append]
  rw [unescapeBytes.eq_1, hdigit _ (by omega), hdigit _ (by omega), hdigit _ (by omega), hvalue,
    if_pos (by simpa using hb), UInt8.ofNat_toNat]

theorem unescapeBytes_octals (bs rest : List UInt8) :
    unescapeBytes (bs.flatMap (fun b => (octal b).flatMap String.utf8EncodeChar) ++ rest) =
      bs ++ unescapeBytes rest := by
  induction bs with
  | nil => rfl
  | cons b bs ih => rw [List.flatMap_cons, List.append_assoc, unescapeBytes_octal, ih, List.cons_append]

-- Undoing the escapes of a written path field gives back its bytes: a character written as
-- itself has no backslash byte, and an escape reads back as its byte.
theorem unescapeBytes_escaped {s t : List Char} (h : Escaped s t) :
    unescapeBytes (t.flatMap String.utf8EncodeChar) = s.flatMap String.utf8EncodeChar := by
  induction h with
  | nil => exact unescapeBytes.eq_3
  | @plain c _ _ hc _ ih =>
    have hne : ∀ x ∈ String.utf8EncodeChar c, x ≠ 92 := utf8EncodeChar_ne_backslash fun hb => by
      rw [hb] at hc
      exact absurd hc (by decide)
    rw [List.flatMap_cons, List.flatMap_cons, unescapeBytes_append_of_ne _ hne, ih]
  | escape _ ih =>
    rw [List.flatMap_append, List.flatMap_assoc, unescapeBytes_octals, ih, List.flatMap_cons]

theorem unescape_escaped {s t : List Char} (h : Escaped s t) :
    unescape (String.ofList t) = String.ofList s := by
  rw [unescape, toUTF8_toList, String.toList_ofList, unescapeBytes_escaped h,
    Text.Utf8.decodeLossy_flatMap]

/-! ## Writing a line -/

/-- The optional fields, each followed by its run of blanks. -/
def optionalText : List String → List (List Char) → List Char
  | f :: fs, g :: gs => f.toList ++ g ++ optionalText fs gs
  | _, _ => []

/-- One way of writing an entry as a line: the digits of its numbers, the written forms of its
paths, the runs of blanks after each field, and the blanks after the last. -/
structure Layout (e : Entry) where
  mountId : List Char
  parentId : List Char
  major : List Char
  minor : List Char
  root : List Char
  mountPoint : List Char
  source : List Char
  afterMountId : List Char
  afterParentId : List Char
  afterDevice : List Char
  afterRoot : List Char
  afterMountPoint : List Char
  afterOptions : List Char
  afterOptional : List (List Char)
  afterDash : List Char
  afterFsType : List Char
  beforeSuper : List Char
  trailing : List Char
  mountId_numeral : Numeral mountId e.mountId
  parentId_numeral : Numeral parentId e.parentId
  major_numeral : Numeral major e.major
  minor_numeral : Numeral minor e.minor
  root_escaped : Escaped e.root.toList root
  mountPoint_escaped : Escaped e.mountPoint.toList mountPoint
  source_escaped : Escaped e.source.toList source
  gaps : ∀ g ∈ [afterMountId, afterParentId, afterDevice, afterRoot, afterMountPoint, afterOptions,
    afterDash, afterFsType, beforeSuper], Blanks g
  afterOptional_length : afterOptional.length = e.optionalFields.length
  afterOptional_blanks : ∀ g ∈ afterOptional, Blanks g
  trailing_blank : ∀ c ∈ trailing, isBlank c = true

/-- The super options as a layout writes them: nothing when there are none, else blanks and the
options. -/
def Layout.superText {e : Entry} (L : Layout e) : List Char :=
  if e.superOptions = "" then [] else L.beforeSuper ++ e.superOptions.toList

/-- The line a layout writes. -/
def Layout.text {e : Entry} (L : Layout e) : List Char :=
  L.mountId ++ L.afterMountId ++ L.parentId ++ L.afterParentId ++ L.major ++ ':' :: L.minor ++
    L.afterDevice ++ L.root ++ L.afterRoot ++ L.mountPoint ++ L.afterMountPoint ++
    e.options.toList ++ L.afterOptions ++ optionalText e.optionalFields L.afterOptional ++
    '-' :: L.afterDash ++ e.fsType.toList ++ L.afterFsType ++ L.source ++ L.superText ++ L.trailing

/-! ## Reading fields -/

section Readers

variable {p : Char → Bool} {xs rest : List Char}

-- A run of characters satisfying `p`, followed by one that does not or by nothing.
theorem takeWhile_append_stop (hx : ∀ x ∈ xs, p x = true) (hr : ∀ c ∈ rest.head?, p c = false) :
    (xs ++ rest).takeWhile p = xs := by
  induction xs with
  | nil =>
    cases rest with
    | nil => rfl
    | cons c r => rw [List.nil_append, List.takeWhile_cons_of_neg (by simp [hr c rfl])]
  | cons x xs ih =>
    rw [List.cons_append, List.takeWhile_cons_of_pos (hx x List.mem_cons_self),
      ih fun y hy => hx y (List.mem_cons_of_mem _ hy)]

theorem dropWhile_append_stop (hx : ∀ x ∈ xs, p x = true) (hr : ∀ c ∈ rest.head?, p c = false) :
    (xs ++ rest).dropWhile p = rest := by
  induction xs with
  | nil =>
    cases rest with
    | nil => rfl
    | cons c r => rw [List.nil_append, List.dropWhile_cons_of_neg (by simp [hr c rfl])]
  | cons x xs ih =>
    rw [List.cons_append, List.dropWhile_cons_of_pos (hx x List.mem_cons_self),
      ih fun y hy => hx y (List.mem_cons_of_mem _ hy)]

/-! ### What a written field starts with -/

theorem head_append_of {P : Char → Prop} {ys : List Char} (hne : xs ≠ []) (h : ∀ c ∈ xs, P c) :
    ∀ c ∈ (xs ++ ys).head?, P c := by
  intro c hc
  rw [List.head?_append_of_ne_nil _ hne] at hc
  exact h c (List.mem_of_mem_head? hc)

theorem Numeral.inert {ds : List Char} {n : Nat} (h : Numeral ds n) : ∀ c ∈ ds, Inert c :=
  fun c hc => inert_of_isDigit (h.2.1 c hc)

theorem Plain.inert_toList {s : String} (h : Plain s) : s.toList ≠ [] ∧ ∀ c ∈ s.toList, Inert c :=
  ⟨fun hnil => h.1 (String.toList_eq_nil_iff.1 hnil), h.2⟩

theorem inert_head {t ys : List Char} (hne : t ≠ []) (hi : ∀ c ∈ t, Inert c) :
    ∀ c ∈ (t ++ ys).head?, isBlank c = false :=
  head_append_of hne fun c hc => isBlank_eq_false (hi c hc)

theorem Blanks.head {g ys : List Char} (h : Blanks g) : ∀ c ∈ (g ++ ys).head?, isBlank c = true :=
  head_append_of h.1 h.2

theorem Blanks.head_not_digit {g ys : List Char} (h : Blanks g) :
    ∀ c ∈ (g ++ ys).head?, c.isDigit = false :=
  head_append_of h.1 fun c hc => isDigit_of_isBlank (h.2 c hc)

theorem number_append {ds : List Char} {n : Nat} (h : Numeral ds n) (hn : n < 4294967296)
    (hr : ∀ c ∈ rest.head?, c.isDigit = false) : number (ds ++ rest) = .ok (n, rest) := by
  obtain ⟨hne, hdigit, hvalue⟩ := h
  unfold number
  rw [takeWhile_append_stop hdigit hr, dropWhile_append_stop hdigit hr]
  dsimp only
  rw [hvalue, if_neg]
  simp only [List.isEmpty_iff, hne, false_or]
  omega

theorem separator_append {sp : List Char} (h : Blanks sp) (hr : ∀ c ∈ rest.head?, isBlank c = false) :
    separator (sp ++ rest) = .ok ((), rest) := by
  obtain ⟨c, cs, rfl⟩ := List.exists_cons_of_ne_nil h.1
  unfold separator
  rw [List.cons_append]
  dsimp only
  rw [if_pos (h.2 c List.mem_cons_self), ← List.cons_append,
    dropWhile_append_stop h.2 hr]

theorem field_append {t : List Char} (ht : t ≠ []) (hi : ∀ c ∈ t, Inert c)
    (hr : ∀ c ∈ rest.head?, isBlank c = true) : field (t ++ rest) = .ok (String.ofList t, rest) := by
  obtain ⟨c, cs, rfl⟩ := List.exists_cons_of_ne_nil ht
  have hnb : ∀ x ∈ c :: cs, (!isBlank x) = true := fun x hx => by
    simp [isBlank_eq_false (hi x hx)]
  have hr' : ∀ x ∈ rest.head?, (!isBlank x) = false := fun x hx => by simp [hr x hx]
  unfold field
  rw [List.cons_append]
  dsimp only
  rw [if_neg (by simp [isBlank_eq_false (hi c List.mem_cons_self)]),
    ← List.cons_append, takeWhile_append_stop hnb hr', dropWhile_append_stop hnb hr']

theorem literal_cons (c : Char) (rest : List Char) : literal c (c :: rest) = .ok ((), rest) := by
  simp [literal]

theorem thenSep_of {α : Type} {q : List Char → Step α} {s s' s'' : List Char} {v : α}
    (hq : q s = .ok (v, s')) (hs : separator s' = .ok ((), s'')) : thenSep q s = .ok (v, s'') := by
  unfold thenSep
  rw [hq]
  simp only [bind, Except.bind, hs]
  rfl

end Readers

/-! ### Optional fields -/

-- The lone `-` stops the optional fields, with any fuel.
theorem optionalFields_dash {dash rest : List Char} (hd : Blanks dash)
    (hr : ∀ c ∈ rest.head?, isBlank c = false) (fuel : Nat) :
    optionalFields fuel ('-' :: (dash ++ rest)) = ([], '-' :: (dash ++ rest)) := by
  cases fuel with
  | zero => rfl
  | succ fuel =>
    have hdash : thenSep field ('-' :: (dash ++ rest)) = .ok ("-", rest) :=
      thenSep_of (field_append (t := ['-']) (List.cons_ne_nil _ _)
        (fun c hc => by
          rw [List.mem_singleton.1 hc]
          exact ⟨by decide, by decide, by decide, by decide⟩) hd.head) (separator_append hd hr)
    rw [optionalFields, hdash]
    rfl

theorem head_optionalText {fs : List String} {rest : List Char} (gs : List (List Char))
    (hf : ∀ f ∈ fs, Plain f ∧ f ≠ "-") (hr : ∀ c ∈ rest.head?, isBlank c = false) :
    ∀ c ∈ (optionalText fs gs ++ rest).head?, isBlank c = false := by
  cases fs with
  | nil => exact hr
  | cons f fs =>
    cases gs with
    | nil => exact hr
    | cons g gs =>
      have hp := (hf f List.mem_cons_self).1.inert_toList
      rw [optionalText, List.append_assoc, List.append_assoc]
      exact inert_head hp.1 hp.2

theorem length_le_optionalText {fs : List String} {gs : List (List Char)}
    (hlen : gs.length = fs.length) (hf : ∀ f ∈ fs, Plain f ∧ f ≠ "-") :
    fs.length ≤ (optionalText fs gs).length := by
  induction fs generalizing gs with
  | nil => exact Nat.zero_le _
  | cons f fs ih =>
    cases gs with
    | nil => simp at hlen
    | cons g gs =>
      have hp := (hf f List.mem_cons_self).1.inert_toList
      have hne : 0 < f.toList.length := List.length_pos_of_ne_nil hp.1
      have := ih (Nat.succ.inj hlen) fun f' hf' => hf f' (List.mem_cons_of_mem _ hf')
      simp only [optionalText, List.length_append, List.length_cons]
      omega

-- The optional fields are read one by one, each with the blanks after it, until the lone `-`;
-- the fuel, the length of what is left, is never the first to run out.
theorem optionalFields_written {rest : List Char}
    (hstop : ∀ fuel, optionalFields fuel rest = ([], rest))
    (hr : ∀ c ∈ rest.head?, isBlank c = false) :
    ∀ (fs : List String) (gs : List (List Char)) (fuel : Nat), gs.length = fs.length →
      (∀ f ∈ fs, Plain f ∧ f ≠ "-") → (∀ g ∈ gs, Blanks g) → fs.length ≤ fuel →
      optionalFields fuel (optionalText fs gs ++ rest) = (fs, rest)
  | [], _, fuel, _, _, _, _ => hstop fuel
  | _ :: _, [], _, hlen, _, _, _ => by simp at hlen
  | f :: fs, g :: gs, fuel + 1, hlen, hf, hg, hfuel => by
    have hp := (hf f List.mem_cons_self).1
    have hfs : ∀ f' ∈ fs, Plain f' ∧ f' ≠ "-" := fun f' hf' => hf f' (List.mem_cons_of_mem _ hf')
    have hgap := hg g List.mem_cons_self
    have hfield : thenSep field (f.toList ++ (g ++ (optionalText fs gs ++ rest))) =
        .ok (f, optionalText fs gs ++ rest) := by
      have h := thenSep_of (field_append hp.inert_toList.1 hp.inert_toList.2 hgap.head)
        (separator_append hgap (head_optionalText gs hfs hr))
      rwa [String.ofList_toList] at h
    rw [optionalText, List.append_assoc, List.append_assoc, optionalFields, hfield]
    simp only [if_neg (hf f List.mem_cons_self).2]
    rw [optionalFields_written hstop hr fs gs fuel (Nat.succ.inj hlen) hfs
      (fun g' hg' => hg g' (List.mem_cons_of_mem _ hg')) (by simpa using hfuel)]
  | _ :: _, _ :: _, 0, _, _, _, hfuel => by simp at hfuel

/-! ## Reading a written line -/

theorem Layout.blanks {e : Entry} (L : Layout e) :
    Blanks L.afterMountId ∧ Blanks L.afterParentId ∧ Blanks L.afterDevice ∧
      Blanks L.afterRoot ∧ Blanks L.afterMountPoint ∧ Blanks L.afterOptions ∧
      Blanks L.afterDash ∧ Blanks L.afterFsType ∧ Blanks L.beforeSuper := by
  have hg := L.gaps
  simp only [List.mem_cons, List.not_mem_nil, or_false, forall_eq_or_imp, forall_eq] at hg
  exact hg

/-- The super options a line's reader finds after the source: a field after blanks, or none. -/
def superOptionsAfter (s : List Char) : String :=
  (((separator s).bind fun r => field r.2).toOption.map Prod.fst).getD ""

-- The reader of a line, taken apart into its steps: what each step reads fixes the record.
theorem line_of_reads {s s₁ s₂ s₃ s₄ s₅ s₆ s₇ s₈ s₉ s₁₀ s₁₁ s₁₂ : List Char}
    {mountId parentId major minor : Nat} {root mountPoint options fsType source : String}
    {optional : List String}
    (h₁ : thenSep number s = .ok (mountId, s₁))
    (h₂ : thenSep number s₁ = .ok (parentId, s₂))
    (h₃ : number s₂ = .ok (major, s₃))
    (h₄ : literal ':' s₃ = .ok ((), s₄))
    (h₅ : thenSep number s₄ = .ok (minor, s₅))
    (h₆ : thenSep field s₅ = .ok (root, s₆))
    (h₇ : thenSep field s₆ = .ok (mountPoint, s₇))
    (h₈ : thenSep field s₇ = .ok (options, s₈))
    (h₉ : optionalFields s₈.length s₈ = (optional, s₉))
    (h₁₀ : thenSep (literal '-') s₉ = .ok ((), s₁₀))
    (h₁₁ : thenSep field s₁₀ = .ok (fsType, s₁₁))
    (h₁₂ : field s₁₁ = .ok (source, s₁₂)) :
    line s = .ok
      { mountId, parentId, major, minor, root := unescape root,
        mountPoint := unescape mountPoint, options, optionalFields := optional, fsType,
        source := unescape source, superOptions := superOptionsAfter s₁₂ } := by
  simp only [line, h₁, h₂, h₃, h₄, h₅, h₆, h₇, h₈, h₉, h₁₀, h₁₁, h₁₂, bind, Except.bind]
  -- what is left is the reader's own case split on the super options
  unfold superOptionsAfter
  rcases separator s₁₂ with f | ⟨⟨⟩, s'⟩
  · rfl
  · dsimp only [Except.bind]
    cases field s' <;> rfl

theorem superOptionsAfter_blank {t : List Char} (h : ∀ c ∈ t, isBlank c = true) :
    superOptionsAfter t = "" := by
  cases t with
  | nil => rfl
  | cons c cs =>
    have hsep : separator (c :: cs) = .ok ((), []) := by
      have hd := dropWhile_append_stop h (fun x (hx : x ∈ ([] : List Char).head?) => by simp at hx)
      rw [List.append_nil] at hd
      unfold separator
      dsimp only
      rw [if_pos (h c List.mem_cons_self), hd]
    unfold superOptionsAfter
    rw [hsep]
    rfl

theorem superOptionsAfter_written {g t : List Char} {v : String} (hg : Blanks g) (hv : Plain v)
    (ht : ∀ c ∈ t, isBlank c = true) : superOptionsAfter (g ++ (v.toList ++ t)) = v := by
  have hp := hv.inert_toList
  unfold superOptionsAfter
  rw [separator_append hg (inert_head hp.1 hp.2)]
  dsimp only [Except.bind]
  rw [field_append hp.1 hp.2 (fun c hc => ht c (List.mem_of_mem_head? hc)), String.ofList_toList]
  rfl

theorem Layout.head_superText {e : Entry} (L : Layout e) :
    ∀ c ∈ (L.superText ++ L.trailing).head?, isBlank c = true := by
  unfold Layout.superText
  split
  · rw [List.nil_append]
    exact fun c hc => L.trailing_blank c (List.mem_of_mem_head? hc)
  · rw [List.append_assoc]
    exact Blanks.head (L.gaps _ (by simp))

theorem Layout.superOptionsAfter_superText {e : Entry} (hrep : e.Representable) (L : Layout e) :
    superOptionsAfter (L.superText ++ L.trailing) = e.superOptions := by
  unfold Layout.superText
  split
  · next hs => rw [List.nil_append, superOptionsAfter_blank L.trailing_blank, hs]
  · next hs =>
    rw [List.append_assoc]
    exact superOptionsAfter_written (L.gaps _ (by simp)) (hrep.superOptions.resolve_left hs)
      L.trailing_blank

theorem head_cons_of {P : Char → Prop} {c : Char} {s : List Char} (h : P c) :
    ∀ x ∈ (c :: s).head?, P x := by
  intro x hx
  rw [List.head?_cons, Option.mem_some_iff] at hx
  exact hx ▸ h

theorem line_text {e : Entry} (hrep : e.Representable) (L : Layout e) : line L.text = .ok e := by
  obtain ⟨g₁, g₂, g₃, g₄, g₅, g₆, g₇, g₈, -⟩ := L.blanks
  have hroot := L.root_escaped
  have hmount := L.mountPoint_escaped
  have hsource := L.source_escaped
  have hroot₀ := hroot.ne_nil_of_ne_empty hrep.root
  have hmount₀ := hmount.ne_nil_of_ne_empty hrep.mountPoint
  have hsource₀ := hsource.ne_nil_of_ne_empty hrep.source
  have hopt := hrep.options.inert_toList
  have hfs := hrep.fsType.inert_toList
  have hdash : isBlank '-' = false := by decide
  unfold Layout.text
  simp only [List.append_assoc, List.cons_append]
  apply Eq.trans (line_of_reads ?h₁ ?h₂ ?h₃ ?h₄ ?h₅ ?h₆ ?h₇ ?h₈ ?h₉ ?h₁₀ ?h₁₁ ?h₁₂)
  case h₁ =>
    exact thenSep_of (number_append L.mountId_numeral hrep.mountId g₁.head_not_digit)
      (separator_append g₁ (inert_head L.parentId_numeral.1 L.parentId_numeral.inert))
  case h₂ =>
    exact thenSep_of (number_append L.parentId_numeral hrep.parentId g₂.head_not_digit)
      (separator_append g₂ (inert_head L.major_numeral.1 L.major_numeral.inert))
  case h₃ =>
    exact number_append L.major_numeral hrep.major (head_cons_of (by decide))
  case h₄ =>
    exact literal_cons _ _
  case h₅ =>
    exact thenSep_of (number_append L.minor_numeral hrep.minor g₃.head_not_digit)
      (separator_append g₃ (inert_head hroot₀ hroot.inert))
  case h₆ =>
    exact thenSep_of (field_append hroot₀ hroot.inert g₄.head)
      (separator_append g₄ (inert_head hmount₀ hmount.inert))
  case h₇ =>
    exact thenSep_of (field_append hmount₀ hmount.inert g₅.head)
      (separator_append g₅ (inert_head hopt.1 hopt.2))
  case h₈ =>
    exact thenSep_of (field_append hopt.1 hopt.2 g₆.head)
      (separator_append g₆ (head_optionalText L.afterOptional hrep.optionalFields
        (head_cons_of hdash)))
  case h₉ =>
    have hlen := length_le_optionalText L.afterOptional_length hrep.optionalFields
    exact optionalFields_written (optionalFields_dash g₇ (inert_head hfs.1 hfs.2))
      (head_cons_of hdash) e.optionalFields L.afterOptional _ L.afterOptional_length
      hrep.optionalFields L.afterOptional_blanks (by rw [List.length_append]; omega)
  case h₁₀ =>
    exact thenSep_of (literal_cons _ _) (separator_append g₇ (inert_head hfs.1 hfs.2))
  case h₁₁ =>
    exact thenSep_of (field_append hfs.1 hfs.2 g₈.head)
      (separator_append g₈ (inert_head hsource₀ hsource.inert))
  case h₁₂ =>
    exact field_append hsource₀ hsource.inert L.head_superText
  rw [unescape_escaped hroot, unescape_escaped hmount, unescape_escaped hsource,
    L.superOptionsAfter_superText hrep]
  simp only [String.ofList_toList]

/-! ## Reading a written table -/

/-- What a line ending puts before its `\n`: a `\r` when it is `\r\n`. -/
def beforeNewline (crlf : Bool) : List Char := if crlf then ['\r'] else []

/-- A line ending: `\n`, or `\r\n` when `crlf`. -/
def lineEnd (crlf : Bool) : List Char := beforeNewline crlf ++ ['\n']

/-- `Written es t`: `t` writes the entries `es` one line each and in order, with lines of white
space anywhere. -/
inductive Written : List Entry → List Char → Prop
  | nil : Written [] []
  | blank {es : List Entry} {t : List Char} (w : List Char) (crlf : Bool) :
      (∀ c ∈ w, Text.isWhiteSpace c = true ∧ c ≠ '\n') → Written es t →
      Written es (w ++ lineEnd crlf ++ t)
  | entry {e : Entry} {es : List Entry} {t : List Char} (L : Layout e) (crlf : Bool) :
      Written es t → Written (e :: es) (L.text ++ lineEnd crlf ++ t)

theorem append_lineEnd (r t : List Char) (crlf : Bool) :
    r ++ lineEnd crlf ++ t = (r ++ beforeNewline crlf) ++ '\n' :: t := by
  simp [lineEnd]

theorem dropCR_beforeNewline {r : List Char} (h : ∀ c ∈ r, c ≠ '\r') (crlf : Bool) :
    dropCR (r ++ beforeNewline crlf) = r := by
  cases crlf with
  | true => simp [dropCR, beforeNewline]
  | false =>
    have hlast : r.getLast? ≠ some '\r' := fun hl => h _ (List.mem_of_getLast? hl) rfl
    simp [dropCR, beforeNewline, hlast]

theorem mem_dropCR {r : List Char} {c : Char} (h : c ∈ dropCR r) : c ∈ r := by
  unfold dropCR at h
  split at h
  · exact List.dropLast_subset r h
  · exact h

theorem mem_beforeNewline {crlf : Bool} {c : Char} (h : c ∈ beforeNewline crlf) : c = '\r' := by
  cases crlf <;> simp_all [beforeNewline]

-- What a line ending leaves before its `\n` holds no `\n` either.
theorem noNewline_beforeNewline {r : List Char} (h : ∀ c ∈ r, c ≠ '\n') (crlf : Bool) :
    ∀ c ∈ r ++ beforeNewline crlf, c ≠ '\n' := by
  intro c hc
  rcases List.mem_append.1 hc with hc | hc
  · exact h c hc
  · rw [mem_beforeNewline hc]
    decide

/-! ### Lines of a written table -/

theorem isWhiteSpace_of_isDigit {c : Char} (h : c.isDigit = true) : Text.isWhiteSpace c = false := by
  simp only [Char.isDigit, Bool.and_eq_true, decide_eq_true_eq] at h
  have h₁ : 48 ≤ c.toNat := h.1
  have h₂ : c.toNat ≤ 57 := h.2
  simp only [Text.isWhiteSpace]
  simp only [Bool.or_eq_false_iff, Bool.and_eq_false_iff, decide_eq_false_iff_not, beq_eq_false_iff_ne]
  omega

theorem noBreak_of_inert {t : List Char} (h : ∀ c ∈ t, Inert c) :
    ∀ c ∈ t, c ≠ '\r' ∧ c ≠ '\n' :=
  fun c hc => ⟨(h c hc).2.2.1, (h c hc).2.2.2⟩

theorem noBreak_of_blank {t : List Char} (h : ∀ c ∈ t, isBlank c = true) :
    ∀ c ∈ t, c ≠ '\r' ∧ c ≠ '\n' := by
  intro c hc
  have hb := h c hc
  simp only [isBlank, Bool.or_eq_true, decide_eq_true_eq] at hb
  rcases hb with rfl | rfl <;> decide

theorem noBreak_optionalText {fs : List String} {gs : List (List Char)}
    (hf : ∀ f ∈ fs, Plain f ∧ f ≠ "-") (hg : ∀ g ∈ gs, Blanks g) :
    ∀ c ∈ optionalText fs gs, c ≠ '\r' ∧ c ≠ '\n' := by
  induction fs generalizing gs with
  | nil => simp [optionalText]
  | cons f fs ih =>
    cases gs with
    | nil => simp [optionalText]
    | cons g gs =>
      simp only [optionalText, List.forall_mem_append]
      exact ⟨⟨noBreak_of_inert (hf f List.mem_cons_self).1.2,
          noBreak_of_blank (hg g List.mem_cons_self).2⟩,
        ih (fun f' h' => hf f' (List.mem_cons_of_mem _ h'))
          (fun g' h' => hg g' (List.mem_cons_of_mem _ h'))⟩

-- Every piece of a written line is inert or blank, so no piece ends the line early.
theorem Layout.noBreak_text {e : Entry} (hrep : e.Representable) (L : Layout e) :
    ∀ c ∈ L.text, c ≠ '\r' ∧ c ≠ '\n' := by
  obtain ⟨g₁, g₂, g₃, g₄, g₅, g₆, g₇, g₈, g₉⟩ := L.blanks
  have hsuper : ∀ c ∈ L.superText, c ≠ '\r' ∧ c ≠ '\n' := by
    unfold Layout.superText
    split
    · exact fun _ h => absurd h List.not_mem_nil
    · next hs =>
      exact List.forall_mem_append.2 ⟨noBreak_of_blank g₉.2,
        noBreak_of_inert (hrep.superOptions.resolve_left hs).2⟩
  have hcolon : (':' : Char) ≠ '\r' ∧ (':' : Char) ≠ '\n' := by decide
  have hdash : ('-' : Char) ≠ '\r' ∧ ('-' : Char) ≠ '\n' := by decide
  unfold Layout.text
  simp only [List.append_assoc, List.cons_append, List.forall_mem_append, List.forall_mem_cons]
  exact ⟨noBreak_of_inert L.mountId_numeral.inert, noBreak_of_blank g₁.2,
    noBreak_of_inert L.parentId_numeral.inert, noBreak_of_blank g₂.2,
    noBreak_of_inert L.major_numeral.inert, hcolon, noBreak_of_inert L.minor_numeral.inert,
    noBreak_of_blank g₃.2, noBreak_of_inert L.root_escaped.inert, noBreak_of_blank g₄.2,
    noBreak_of_inert L.mountPoint_escaped.inert, noBreak_of_blank g₅.2,
    noBreak_of_inert hrep.options.2, noBreak_of_blank g₆.2,
    noBreak_optionalText hrep.optionalFields L.afterOptional_blanks, hdash,
    noBreak_of_blank g₇.2, noBreak_of_inert hrep.fsType.2, noBreak_of_blank g₈.2,
    noBreak_of_inert L.source_escaped.inert, hsuper, noBreak_of_blank L.trailing_blank⟩

-- A written line starts with the digits of the mount ID, so it is never blank.
theorem Layout.isBlankText_text {e : Entry} (L : Layout e) :
    Text.isBlankText (String.ofList L.text) = false := by
  obtain ⟨d, ds, hd⟩ := List.exists_cons_of_ne_nil L.mountId_numeral.1
  have hdigit := L.mountId_numeral.2.1 d (by rw [hd]; exact List.mem_cons_self)
  have hmem : d ∈ L.text := by
    unfold Layout.text
    simp only [List.append_assoc, hd, List.cons_append, List.mem_cons, true_or]
  unfold Text.isBlankText
  rw [String.toList_ofList, List.all_eq_false]
  exact ⟨d, hmem, by simp [isWhiteSpace_of_isDigit hdigit]⟩

theorem isBlankText_blank {w : List Char} (hw : ∀ c ∈ w, Text.isWhiteSpace c = true ∧ c ≠ '\n')
    (crlf : Bool) : Text.isBlankText (String.ofList (dropCR (w ++ beforeNewline crlf))) = true := by
  unfold Text.isBlankText
  rw [String.toList_ofList, List.all_eq_true]
  intro c hc
  rcases List.mem_append.1 (mem_dropCR hc) with h | h
  · exact (hw c h).1
  · rw [mem_beforeNewline h]
    decide

-- The rows of a written table are its lines with their endings cut off; reading them from
-- any line number gives the entries back. The induction follows the lines of the text.
theorem Written.rows {es : List Entry} {t : List Char} (hw : Written es t)
    (hes : ∀ e ∈ es, e.Representable) :
    ∃ rows : List (List Char), t.splitOnP (· == '\n') = rows ++ [[]] ∧
      ∀ n, readLines n (rows.map fun r => String.ofList (dropCR r)) = .ok es := by
  induction hw with
  | nil => exact ⟨[], List.splitOnP_nil, fun _ => rfl⟩
  | blank w crlf hw₀ _ ih =>
    obtain ⟨rows, hsplit, hread⟩ := ih hes
    have hrow := noNewline_beforeNewline (fun c hc => (hw₀ c hc).2) crlf
    refine ⟨(w ++ beforeNewline crlf) :: rows, ?_, fun n => ?_⟩
    · rw [append_lineEnd, splitOnP_line hrow, hsplit, List.cons_append]
    · rw [List.map_cons, readLines_blank (isBlankText_blank hw₀ crlf), hread]
  | @entry e es t L crlf _ ih =>
    have hrep := hes e List.mem_cons_self
    obtain ⟨rows, hsplit, hread⟩ := ih fun e' he' => hes e' (List.mem_cons_of_mem _ he')
    have hnb := L.noBreak_text hrep
    have hrow := noNewline_beforeNewline (fun c hc => (hnb c hc).2) crlf
    have hline : dropCR (L.text ++ beforeNewline crlf) = L.text :=
      dropCR_beforeNewline (fun c hc => (hnb c hc).1) crlf
    refine ⟨(L.text ++ beforeNewline crlf) :: rows, ?_, fun n => ?_⟩
    · rw [append_lineEnd, splitOnP_line hrow, hsplit, List.cons_append]
    · rw [List.map_cons, hline, readLines_entry L.isBlankText_text
        (by rw [String.toList_ofList]; exact line_text hrep L), hread]
      rfl

theorem parse_written {es : List Entry} {t : List Char} (hes : ∀ e ∈ es, e.Representable)
    (hw : Written es t) : parse (String.ofList t) = .ok es := by
  obtain ⟨rows, hsplit, hread⟩ := hw.rows hes
  unfold parse
  rw [lines_of_split (by rwa [String.toList_ofList]), hread]

/-! ### A sample table -/

theorem forall_mem_of_all {l : List Char} {p : Char → Prop} [DecidablePred p]
    (h : (l.all fun c => decide (p c)) = true) : ∀ c ∈ l, p c :=
  fun c hc => of_decide_eq_true (List.all_eq_true.1 h c hc)

/-- The line `36 35 98:0 /mnt1 /mnt/a\040b rw,noatime master:1 - ext3 /dev/root rw,errors=continue`
as an entry: its mount point holds a space. -/
def sampleEntry : Entry where
  mountId := 36
  parentId := 35
  major := 98
  minor := 0
  root := "/mnt1"
  mountPoint := "/mnt/a b"
  options := "rw,noatime"
  optionalFields := ["master:1"]
  fsType := "ext3"
  source := "/dev/root"
  superOptions := "rw,errors=continue"

theorem sampleEntry_representable : sampleEntry.Representable where
  mountId := by decide
  parentId := by decide
  major := by decide
  minor := by decide
  root := by decide
  mountPoint := by decide
  source := by decide
  options := by decide
  fsType := by decide
  optionalFields := by decide
  superOptions := by decide

/-- The sample line with one space between fields, the space of the mount point escaped. -/
def sampleLayout : Layout sampleEntry where
  mountId := ['3', '6']
  parentId := ['3', '5']
  major := ['9', '8']
  minor := ['0']
  root := "/mnt1".toList
  mountPoint := "/mnt/a".toList ++ ((String.utf8EncodeChar ' ').flatMap octal ++ ['b'])
  source := "/dev/root".toList
  afterMountId := [' ']
  afterParentId := [' ']
  afterDevice := [' ']
  afterRoot := [' ']
  afterMountPoint := [' ']
  afterOptions := [' ']
  afterOptional := [[' ']]
  afterDash := [' ']
  afterFsType := [' ']
  beforeSuper := [' ']
  trailing := []
  mountId_numeral := by decide
  parentId_numeral := by decide
  major_numeral := by decide
  minor_numeral := by decide
  root_escaped := Escaped.self (forall_mem_of_all rfl)
  mountPoint_escaped := by
    have hsplit : sampleEntry.mountPoint.toList = "/mnt/a".toList ++ ' ' :: ['b'] := by decide
    rw [hsplit]
    exact (Escaped.self (forall_mem_of_all rfl)).append
      (.escape (Escaped.self (forall_mem_of_all rfl)))
  source_escaped := Escaped.self (forall_mem_of_all rfl)
  gaps := by decide
  afterOptional_length := rfl
  afterOptional_blanks := by decide
  trailing_blank := forall_mem_of_all rfl

/-- A blank line of a space and a tab, then the sample line ended by `\r\n`. -/
def sampleText : List Char :=
  [' ', '\t'] ++ lineEnd false ++ (sampleLayout.text ++ lineEnd true ++ [])

theorem parse_written_sample :
    (∀ e ∈ [sampleEntry], e.Representable) ∧ Written [sampleEntry] sampleText ∧
      parse (String.ofList sampleText) = .ok [sampleEntry] := by
  have hes : ∀ e ∈ [sampleEntry], e.Representable := by
    intro e he
    rw [List.mem_singleton.1 he]
    exact sampleEntry_representable
  have hw : Written [sampleEntry] sampleText :=
    .blank [' ', '\t'] false (forall_mem_of_all rfl) (.entry sampleLayout true .nil)
  exact ⟨hes, hw, parse_written hes hw⟩

end MountIndex.Table

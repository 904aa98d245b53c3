import EbmlReport.Proofs.Drawing

/-!
# Texts without line feeds

What is shown on one line must not have a line feed inside.  Numbers, dates, byte strings
and quoted text have none, whatever they stand for, and a drawing has none just when its
labels have none.

**Results.**
* `oneLine_quotedText`: quoted text is a single line.
* `Outline.oneLine_draw_iff`: a drawing is in single lines just when its outline is.
-/

namespace EbmlReport

/-- The text has no line feed. -/
def OneLine (text : String) : Prop :=
  '\n' ∉ text.toList

/-- A line feed shows in the bytes of a text. -/
theorem byte_mem_of_newline_mem {text : String} (h : '\n' ∈ text.toList) :
    10 ∈ text.toByteArray.data.toList := by
  have hbytes : text.toByteArray = (text.toList.flatMap String.utf8EncodeChar).toByteArray :=
    (congrArg String.toByteArray String.ofList_toList).symm.trans String.toByteArray_ofList
  rw [hbytes, List.data_toByteArray]
  exact List.mem_flatMap.mpr ⟨'\n', h, by decide⟩

-- The bytes of a wording are at hand, while its characters have to be decoded from them.
instance : DecidablePred OneLine := fun text =>
  if h : 10 ∈ text.toByteArray.data.toList then inferInstanceAs (Decidable ('\n' ∉ text.toList))
  else isTrue fun hnewline => h (byte_mem_of_newline_mem hnewline)

/-- Each of the texts has no line feed. -/
def OneLineEach (texts : List String) : Prop :=
  ∀ text ∈ texts, OneLine text

instance : DecidablePred OneLineEach :=
  fun texts => inferInstanceAs (Decidable (∀ text ∈ texts, OneLine text))

section Lists

variable {α : Type} {text : String} {texts front back : List String}

@[simp] theorem oneLineEach_nil : OneLineEach [] := by
  simp [OneLineEach]

@[simp] theorem oneLineEach_cons :
    OneLineEach (text :: texts) ↔ OneLine text ∧ OneLineEach texts := by
  simp [OneLineEach]

@[simp] theorem oneLineEach_append :
    OneLineEach (front ++ back) ↔ OneLineEach front ∧ OneLineEach back := by
  simp [OneLineEach, or_imp, forall_and]

@[simp] theorem oneLineEach_map {items : List α} {line : α → String} :
    OneLineEach (items.map line) ↔ ∀ item ∈ items, OneLine (line item) := by
  simp [OneLineEach]

@[simp] theorem oneLineEach_flatMap {items : List α} {lines : α → List String} :
    OneLineEach (items.flatMap lines) ↔ ∀ item ∈ items, OneLineEach (lines item) := by
  simp only [OneLineEach, List.mem_flatMap]
  constructor
  · intro h item hitem text htext
    exact h text ⟨item, hitem, htext⟩
  · rintro h text ⟨item, hitem, htext⟩
    exact h item hitem text htext

end Lists

section Texts

variable {front back separator text : String} {chars : List Char} {parts : List String}

@[simp] theorem oneLine_append : OneLine (front ++ back) ↔ OneLine front ∧ OneLine back := by
  simp [OneLine, String.toList_append]

theorem oneLine_ofList : OneLine (String.ofList chars) ↔ '\n' ∉ chars := by
  rw [OneLine, String.toList_ofList]

@[simp] theorem oneLine_toString : OneLine (toString text) ↔ OneLine text :=
  Iff.rfl

theorem oneLine_intercalate (hseparator : OneLine separator) (hparts : OneLineEach parts) :
    OneLine (String.intercalate separator parts) := by
  induction parts with
  | nil => simp [OneLine]
  | cons part parts ih =>
      obtain ⟨hpart, hlater⟩ := oneLineEach_cons.mp hparts
      cases parts with
      | nil => simpa using hpart
      | cons next parts =>
          rw [String.intercalate_cons_cons, oneLine_append, oneLine_append]
          exact ⟨⟨hpart, hseparator⟩, ih hlater⟩

end Texts

section Numbers

/-- A numeral is made of the digits below its base. -/
theorem exists_digit_of_mem_toDigits
    {base n : Nat}
    {c : Char}
    (hbase : 1 < base)
    (h : c ∈ Nat.toDigits base n) :
    ∃ digit, digit < base ∧ c = Nat.digitChar digit := by
  induction n using Nat.strongRecOn with
  | ind n ih =>
      rw [Nat.toDigits_eq_if hbase] at h
      split at h
      · rename_i hsmall
        exact ⟨n, hsmall, List.mem_singleton.mp h⟩
      · rename_i hlarge
        rcases List.mem_append.mp h with hfront | hlast
        · exact ih (n / base) (Nat.div_lt_self (by omega) hbase) hfront
        · exact ⟨n % base, Nat.mod_lt n (by omega), List.mem_singleton.mp hlast⟩

/-- The digits of numerals are not line feeds, nor are they in upper case. -/
theorem digitChar_ne_newline :
    ∀ digit, digit < 16 →
      Nat.digitChar digit ≠ '\n' ∧ (Nat.digitChar digit).toUpper ≠ '\n' := by
  decide

theorem newline_not_mem_toDigits
    (base n : Nat)
    (hbase : 1 < base)
    (hdigits : base ≤ 16) :
    '\n' ∉ Nat.toDigits base n := by
  intro h
  obtain ⟨digit, hdigit, hnewline⟩ := exists_digit_of_mem_toDigits hbase h
  exact (digitChar_ne_newline digit (by omega)).1 hnewline.symm

@[simp] theorem oneLine_repr (n : Nat) : OneLine n.repr := by
  rw [Nat.repr_eq_ofList_toDigits, oneLine_ofList]
  exact newline_not_mem_toDigits 10 n (by decide) (by decide)

@[simp] theorem oneLine_intRepr (n : Int) : OneLine n.repr := by
  rw [Int.repr_eq_if]
  split
  · exact oneLine_repr _
  · exact oneLine_append.mpr ⟨by decide, oneLine_repr _⟩

@[simp] theorem oneLine_idText (id : Nat) : OneLine (Hex.idText id) := by
  refine oneLine_append.mpr ⟨by decide, oneLine_ofList.mpr ?_⟩
  intro h
  obtain ⟨c, hc, hnewline⟩ := List.mem_map.mp h
  obtain ⟨digit, hdigit, rfl⟩ := exists_digit_of_mem_toDigits (by decide) hc
  exact (digitChar_ne_newline digit hdigit).2 hnewline

@[simp] theorem oneLine_hexText (bytes : Bytes) : OneLine (Hex.text bytes) := by
  have hdigit : ∀ digit, digit < 16 → Hex.digit digit ≠ '\n' := by decide
  refine oneLine_ofList.mpr fun h => ?_
  obtain ⟨byte, _, hmem⟩ := List.mem_flatMap.mp h
  have hbyte := byte.toNat_lt
  rcases List.mem_pair.mp hmem with hhigh | hlow
  · exact hdigit _ (by omega) hhigh.symm
  · exact hdigit _ (by omega) hlow.symm

@[simp] theorem oneLine_padZeros
    {width : Nat}
    {text : String} :
    OneLine (padZeros width text) ↔ OneLine text := by
  have hzeros : OneLine (String.ofList (List.replicate (width - text.length) '0')) := by
    rw [oneLine_ofList, List.mem_replicate]
    exact fun h => absurd h.2 (by decide)
  simp [padZeros, hzeros]

@[simp] theorem oneLine_pointText (places n : Nat) : OneLine (pointText places n) := by
  unfold pointText
  split <;> simp +decide

@[simp] theorem oneLine_fixed (places : Nat) (x : Binary64) : OneLine (x.fixed places) := by
  have hsign : ∀ negative, OneLine (signText negative) := by decide
  unfold Binary64.fixed
  split
  · decide
  · exact oneLine_append.mpr ⟨hsign _, by decide⟩
  · exact oneLine_append.mpr ⟨hsign _, oneLine_pointText _ _⟩

@[simp] theorem oneLine_dateText (nanos : Int) : OneLine (Calendar.text nanos) := by
  have hfield : ∀ width n, OneLine (Calendar.field width n) := by simp [Calendar.field]
  rw [Calendar.text]
  split
  split
  · simp +decide [hfield]
  · simp +decide

end Numbers

section Quotation

/-- A character is written as an escape or as itself, and a line feed has an escape. -/
theorem newline_not_mem_encodeChar (c : Char) : '\n' ∉ Quoted.encodeChar c := by
  have hcode := newline_not_mem_toDigits 16 c.toNat (by decide) (by decide)
  grind [Quoted.encodeChar]

@[simp] theorem oneLine_quotedText (text : String) : OneLine (Quoted.text text) := by
  refine oneLine_ofList.mpr fun h => ?_
  simp only [List.mem_append, List.mem_singleton, Quoted.encode, List.mem_flatMap] at h
  rcases h with (hopening | ⟨c, _, hmem⟩) | hclosing
  · exact absurd hopening (by decide)
  · exact newline_not_mem_encodeChar c hmem
  · exact absurd hclosing (by decide)

end Quotation

namespace Outline

variable {α : Type}

/-- The property holds of every item. -/
def All (p : α → Prop) : Outline α → Prop
  | nil => True
  | node item children rest => p item ∧ children.All p ∧ rest.All p

section Items

variable {p : α → Prop} {item : α} {children rest front back : Outline α}
  {outlines : List (Outline α)}

@[simp] theorem all_nil : (nil : Outline α).All p := trivial

@[simp] theorem all_node :
    (node item children rest).All p ↔ p item ∧ children.All p ∧ rest.All p := Iff.rfl

@[simp] theorem all_append : (front ++ back).All p ↔ front.All p ∧ back.All p := by
  induction front with
  | nil => exact (iff_of_eq (true_and _)).symm
  | node item children rest _ ih =>
      have hnode : node item children rest ++ back = node item children (rest ++ back) := rfl
      simp only [hnode, all_node, ih, and_assoc]

@[simp] theorem all_join : (join outlines).All p ↔ ∀ outline ∈ outlines, outline.All p := by
  induction outlines with
  | nil => simp [join]
  | cons first outlines ih => simp [join, ih]

end Items

section Labels

variable {label : String} {items fields : List String} {outline below : Outline String}

@[simp] theorem oneLine_ofItems : (ofItems items).All OneLine ↔ OneLineEach items := by
  induction items with
  | nil => simp [ofItems]
  | cons first items ih => simp [ofItems, ih]

@[simp] theorem oneLine_entry :
    (entry label fields below).All OneLine ↔
      OneLine label ∧ OneLineEach fields ∧ below.All OneLine := by
  simp [entry, single]

/-- A drawing is in single lines just when its outline is. -/
theorem oneLine_draw_iff : OneLineEach outline.draw ↔ outline.All OneLine := by
  have hbranch : ∀ last, OneLine (branch last) := by decide
  have hcell : ∀ last, OneLine (cell last) := by decide
  induction outline with
  | nil => simp [draw, drawAfter]
  | node label children rest ihChildren ihRest =>
      have hchildren : (∀ line ∈ children.draw, OneLine line) ↔ children.All OneLine :=
        ihChildren
      simp [draw_node, hbranch, hcell, hchildren, ihRest]

end Labels

end Outline

end EbmlReport

import Template.Json.Printer
import Template.Proofs.NumberText

/-!
# `Template.Proofs.JsonText` — documents read back from their text

A document whose objects hold no name twice is read back from its text, in every layout (`read_print`), and what
is read is such a document (`distinct_of_read`). So the text of a document says everything about it
(`print_injective`).

## Contents
- `Json.Distinct` — no object holds a name twice.
- `readString_escape` — a character of a string, escaped or not.
- `readValue_print` — a value, its items and its members, by induction on the value.
-/

namespace Template.Json

open Text

/-! ## Documents whose objects hold no name twice -/

mutual

/-- No object in the value holds a name twice. -/
def Distinct : Json → Prop
  | .array items => DistinctItems items
  | .object members => (members.map (·.1)).Nodup ∧ DistinctMembers members
  | .null => True
  | .bool _ => True
  | .number _ => True
  | .string _ => True

/-- No object in the items of an array holds a name twice. -/
def DistinctItems : List Json → Prop
  | [] => True
  | item :: rest => Distinct item ∧ DistinctItems rest

/-- No object in the members of an object holds a name twice. -/
def DistinctMembers : List (String × Json) → Prop
  | [] => True
  | (_, value) :: rest => Distinct value ∧ DistinctMembers rest

end

theorem put_of_not_mem {α : Type} {name : String} {value : α} {members : List (String × α)}
    (h : name ∉ members.map (·.1)) : put name value members = members ++ [(name, value)] := by
  induction members with
  | nil => rfl
  | cons member rest ih =>
    obtain ⟨other, old⟩ := member
    rw [List.map_cons, List.mem_cons, not_or] at h
    rw [put, if_neg (Ne.symm h.1), ih h.2, List.cons_append]

/-- Members with distinct names are set one behind the other. -/
theorem merge_of_nodup {α : Type} {members added : List (String × α)}
    (h : ((members ++ added).map (·.1)).Nodup) : merge members added = members ++ added := by
  induction added generalizing members with
  | nil => rw [List.append_nil]; rfl
  | cons member rest ih =>
    have hmem : member.1 ∉ members.map (·.1) := by
      rw [List.map_append, List.map_cons] at h
      intro hmem
      exact (List.nodup_append.mp h).2.2 _ hmem _ List.mem_cons_self rfl
    show merge (put member.1 member.2 members) rest = _
    rw [put_of_not_mem hmem, ih (by rwa [List.append_assoc]), List.append_assoc]
    rfl

/-! ## Strings -/

/-- The number that a text of four hexadecimal digits stands for. -/
def hexText? : List Char → Option Nat
  | [a, b, c, d] => hexValue4? a b c d
  | _ => none

theorem hexText?_paddedHex : ∀ n < 0x20, hexText? (paddedHex 4 n) = some n := by
  decide

theorem readString_short (opening : Nat) {e c : Char} (h : shortEscape? e = some c) (rest : List Char) :
    readString opening ('\\' :: e :: rest) = onto c (readString opening rest) := by
  have hu : e ≠ 'u' := by
    rintro rfl
    cases h
  rw [readString]
  · rw [h]
  · intro _ _ _ _ _ _ he
    exact absurd he hu
  · exact hu

/-- A control character is escaped by its number, which is no half of a larger one. -/
theorem readString_hex (opening : Nat) {c : Char} (hlow : c.toNat < 0x20) {rest : List Char}
    (hne : rest ≠ []) :
    readString opening ('\\' :: 'u' :: (paddedHex 4 c.toNat ++ rest)) = onto c (readString opening rest) := by
  obtain ⟨e, rest, rfl⟩ := List.exists_cons_of_ne_nil hne
  have hhigh : isHighHalf c.toNat = false := by
    rw [isHighHalf, Bool.and_eq_false_iff]
    exact .inl (decide_eq_false (by omega))
  have hlowHalf : isLowHalf c.toNat = false := by
    rw [isLowHalf, Bool.and_eq_false_iff]
    exact .inl (decide_eq_false (by omega))
  have hchar : charOf c.toNat = c := by
    rw [charOf, hhigh, hlowHalf]
    exact Char.ofNat_toNat c
  have hvalue := hexText?_paddedHex c.toNat hlow
  -- all that matters of the digits is that there are four, and what they stand for
  generalize paddedHex 4 c.toNat = digits at hvalue ⊢
  unfold hexText? at hvalue
  split at hvalue
  · rename_i a b c' d
    show readString opening ('\\' :: 'u' :: a :: b :: c' :: d :: e :: rest) = _
    rw [readString, hvalue]
    dsimp only
    rw [hchar]
    split
    · rw [hhigh, if_neg Bool.false_ne_true]
    · rfl
  · cases hvalue

theorem readString_plain (opening : Nat) {c : Char} (hquote : c ≠ '"') (hslash : c ≠ '\\')
    (hlow : ¬ c.toNat < 0x20) (rest : List Char) :
    readString opening (c :: rest) = onto c (readString opening rest) := by
  rw [readString]
  · rw [if_neg hlow]
  · exact fun h => absurd h hquote
  · exact fun h _ => absurd h hslash
  · intro _ _ _ _ _ _ h _
    exact absurd h hslash
  · intro _ h _
    exact absurd h hslash
  · intro _ _ h _
    exact absurd h hslash

/-- **A character of a string is read back**, whether it is escaped or not. -/
theorem readString_escape (opening : Nat) (c : Char) {rest : List Char} (hne : rest ≠ []) :
    readString opening (escape c ++ rest) = onto c (readString opening rest) := by
  unfold escape
  split
  · subst_vars
    exact readString_short opening rfl rest
  split
  · subst_vars
    exact readString_short opening rfl rest
  split
  · subst_vars
    exact readString_short opening rfl rest
  split
  · subst_vars
    exact readString_short opening rfl rest
  split
  · subst_vars
    exact readString_short opening rfl rest
  split
  · subst_vars
    exact readString_short opening rfl rest
  split
  · subst_vars
    exact readString_short opening rfl rest
  split
  · exact readString_hex opening ‹_› hne
  · rename_i hquote hslash _ _ _ _ _ hlow
    exact readString_plain opening hquote hslash hlow rest

theorem readString_print (opening : Nat) (text : List Char) (rest : List Char) :
    readString opening (text.flatMap escape ++ '"' :: rest) = .ok (text, rest) := by
  induction text with
  | nil =>
    show readString opening ('"' :: rest) = _
    rw [readString]
  | cons c text ih =>
    rw [List.flatMap_cons, List.append_assoc, readString_escape opening c (by simp), ih]
    rfl

/-! ## What a value starts with -/

/-- Characters with which no value starts: blanks, the bracket that closes an array, and a byte order mark. -/
def NoStart (c : Char) : Prop :=
  c = ' ' ∨ c = '\t' ∨ c = '\n' ∨ c = '\r' ∨ c = ']' ∨ c = '\ufeff'

/-- The text starts, with a character that a value may start with. -/
def Starts (text : List Char) : Prop :=
  ∃ c rest, text = c :: rest ∧ ¬ NoStart c

theorem readValue_noStart {c : Char} (h : NoStart c) (fuel : Nat) (rest : List Char) :
    readValue (fuel + 1) (c :: rest) = .error (.value, (c :: rest).length) := by
  rcases h with rfl | rfl | rfl | rfl | rfl | rfl <;> rfl

theorem starts_of_readValue {fuel : Nat} {text : List Char} {found : Json × List Char}
    (h : readValue fuel text = .ok found) : Starts text := by
  cases fuel with
  | zero => rw [readValue] at h; cases h
  | succ fuel =>
    cases text with
    | nil =>
      rw [readValue.eq_def] at h
      cases h
    | cons c rest =>
      refine ⟨c, rest, rfl, ?_⟩
      intro hc
      rw [readValue_noStart hc] at h
      cases h

theorem starts_of_readItems {fuel : Nat} {text : List Char} {found : List Json × List Char}
    (h : readItems fuel text = .ok found) : Starts text := by
  cases fuel with
  | zero => rw [readItems] at h; cases h
  | succ fuel =>
    rw [readItems] at h
    split at h
    · cases h
    · exact starts_of_readValue ‹_›

theorem starts_of_readMembers {fuel : Nat} {text : List Char} {found : List (String × Json) × List Char}
    (h : readMembers fuel text = .ok found) : ∃ rest, text = '"' :: rest := by
  cases fuel with
  | zero => rw [readMembers] at h; cases h
  | succ fuel =>
    rw [readMembers.eq_def] at h
    dsimp only at h
    split at h
    · exact ⟨_, rfl⟩
    · cases h

theorem Starts.skipBlanks {text : List Char} (h : Starts text) : skipBlanks text = text := by
  obtain ⟨c, rest, rfl, hc⟩ := h
  unfold Json.skipBlanks
  rw [List.dropWhile_cons_of_neg]
  simp only [NoStart, not_or] at hc
  simp [hc]

/-- Blanks between two parts are skipped. -/
theorem skipBlanks_lineBreak (layout : Layout) (depth : Nat) (text : List Char) :
    skipBlanks (layout.lineBreak depth ++ text) = skipBlanks text := by
  cases layout with
  | compact => rfl
  | indented width =>
    show skipBlanks (List.replicate (width * depth) ' ' ++ text) = _
    generalize width * depth = n
    induction n with
    | zero => rfl
    | succ n ih => exact ih

/-- An array that is not empty, once its items are read. -/
theorem readValue_of_readItems {fuel : Nat} {text tail : List Char} {items : List Json}
    (h : readItems fuel text = .ok (items, tail)) (layout : Layout) (depth : Nat) :
    readValue (fuel + 1) ('[' :: (layout.lineBreak depth ++ text)) = .ok (.array items, tail) := by
  have hstarts := starts_of_readItems h
  rw [readValue]
  dsimp only
  rw [skipBlanks_lineBreak, hstarts.skipBlanks]
  split
  · obtain ⟨c, rest, hc, hno⟩ := hstarts
    cases hc
    exact absurd (by simp [NoStart]) hno
  · rw [h]
    rfl

/-- The colon behind a name, with the blanks that belong to it. -/
theorem exists_colon (layout : Layout) : ∃ blanks, layout.colon = ':' :: blanks ∧
    ∀ text, skipBlanks (blanks ++ text) = skipBlanks text := by
  cases layout with
  | compact => exact ⟨[], rfl, fun _ => rfl⟩
  | indented width => exact ⟨[' '], rfl, fun _ => rfl⟩

/-- A member: its name, the colon behind that, and its value. -/
theorem readMembers_name (fuel : Nat) (layout : Layout) (name : String) (text : List Char) :
    readMembers (fuel + 1) (printString name ++ (layout.colon ++ text)) =
      (readValue fuel (skipBlanks text)).bind fun (value, rest) =>
        match skipBlanks rest with
        | '}' :: rest => .ok ([(name, value)], rest)
        | ',' :: rest =>
          (readMembers fuel (skipBlanks rest)).map fun (members, rest) => ((name, value) :: members, rest)
        | rest => .error (.comma, rest.length) := by
  obtain ⟨blanks, hcolon, hblanks⟩ := exists_colon layout
  have hskip : skipBlanks (':' :: (blanks ++ text)) = ':' :: (blanks ++ text) := rfl
  simp only [printString, hcolon, List.cons_append, List.append_assoc, List.nil_append]
  rw [readMembers, readString_print]
  dsimp only
  rw [hskip]
  split
  · rename_i htext
    cases htext
    rw [hblanks, String.ofList_toList]
    cases readValue fuel (skipBlanks text) with
    | error fault => rfl
    | ok found => rfl
  · rename_i hne
    exact absurd rfl (hne _)

/-- An object that is not empty, once its members are read. -/
theorem readValue_of_readMembers {fuel : Nat} {text tail : List Char} {members : List (String × Json)}
    (h : readMembers fuel text = .ok (members, tail)) (layout : Layout) (depth : Nat) :
    readValue (fuel + 1) ('{' :: (layout.lineBreak depth ++ text)) =
      .ok (.object (merge [] members), tail) := by
  obtain ⟨rest, rfl⟩ := starts_of_readMembers h
  have hskip : skipBlanks (layout.lineBreak depth ++ '"' :: rest) = '"' :: rest :=
    skipBlanks_lineBreak layout depth _
  rw [readValue, hskip]
  show (readMembers fuel _).map _ = _
  rw [h]
  rfl

/-! ## Values -/

/-- The text of the items of an array, without what stands in front of the first. -/
def printRow (layout : Layout) (depth : Nat) : List Json → List Char
  | [] => []
  | first :: rest => printAt layout depth first ++ printItems layout depth rest

theorem printItems_eq {layout : Layout} {depth : Nat} {items : List Json} (h : items ≠ []) :
    printItems layout depth items = ',' :: (layout.lineBreak depth ++ printRow layout depth items) := by
  cases items with
  | nil => exact absurd rfl h
  | cons first rest => simp only [printItems, printRow, List.append_assoc, List.cons_append]

theorem printAt_array {layout : Layout} {depth : Nat} {items : List Json} (h : items ≠ []) :
    printAt layout depth (.array items) =
      '[' :: (layout.lineBreak (depth + 1) ++ (printRow layout (depth + 1) items ++
        (layout.lineBreak depth ++ [']']))) := by
  cases items with
  | nil => exact absurd rfl h
  | cons first rest => simp only [printAt, printRow, List.append_assoc, List.cons_append]

/-- The text of the members of an object, without what stands in front of the first. -/
def printFields (layout : Layout) (depth : Nat) : List (String × Json) → List Char
  | [] => []
  | (name, value) :: rest =>
    printString name ++ layout.colon ++ printAt layout depth value ++ printMembers layout depth rest

theorem printMembers_eq {layout : Layout} {depth : Nat} {members : List (String × Json)}
    (h : members ≠ []) :
    printMembers layout depth members =
      ',' :: (layout.lineBreak depth ++ printFields layout depth members) := by
  cases members with
  | nil => exact absurd rfl h
  | cons first rest => simp only [printMembers, printFields, List.append_assoc, List.cons_append]

theorem printAt_object {layout : Layout} {depth : Nat} {members : List (String × Json)}
    (h : members ≠ []) :
    printAt layout depth (.object members) =
      '{' :: (layout.lineBreak (depth + 1) ++ (printFields layout (depth + 1) members ++
        (layout.lineBreak depth ++ ['}']))) := by
  cases members with
  | nil => exact absurd rfl h
  | cons first rest => simp only [printAt, printFields, List.append_assoc, List.cons_append]

theorem endsNumber_nil : EndsNumber [] := by
  intro c hc
  cases hc

theorem integer_injective {a b : Int} (h : integer a = integer b) : a = b := by
  have ha := numeral_integer a [] endsNumber_nil
  rw [h, numeral_integer b [] endsNumber_nil] at ha
  cases ha
  rfl

theorem endsNumber_cons {c : Char} (h : asciiDigit? c = none ∧ c ≠ '.' ∧ c ≠ 'e' ∧ c ≠ 'E')
    (rest : List Char) : EndsNumber (c :: rest) := by
  rintro _ ⟨⟩
  exact h

/-- What closes an array or an object: the bracket, on a line of its own if there are lines. -/
theorem endsNumber_close (layout : Layout) (depth : Nat) {c : Char}
    (h : asciiDigit? c = none ∧ c ≠ '.' ∧ c ≠ 'e' ∧ c ≠ 'E') (rest : List Char) :
    EndsNumber (layout.lineBreak depth ++ c :: rest) := by
  cases layout with
  | compact => exact endsNumber_cons h rest
  | indented width => exact endsNumber_cons (by decide) _

variable {layout : Layout}

mutual

/-- **A value is read back from its text**, whatever stands behind it that does not belong to a number. -/
theorem readValue_print (value : Json) (hv : value.Distinct) (depth : Nat) {rest : List Char}
    (hr : EndsNumber rest) (fuel : Nat) (hf : 2 * (printAt layout depth value).length + 1 ≤ fuel) :
    readValue fuel (printAt layout depth value ++ rest) = .ok (value, rest) := by
  -- each level takes one turn for its value and one for each of its parts, hence twice the length
  obtain ⟨fuel, rfl⟩ := Nat.exists_eq_add_of_lt (Nat.lt_of_lt_of_le (Nat.succ_pos _) hf)
  rw [Nat.zero_add] at hf ⊢
  match value with
  | .null => rfl
  | .bool true => rfl
  | .bool false => rfl
  | .number n =>
    rw [printAt]
    exact readValue_number n hr fuel
  | .string s =>
    rw [printAt, printString, List.cons_append, List.append_assoc]
    show (readString _ (s.toList.flatMap escape ++ '"' :: rest)).map _ = _
    rw [readString_print]
    exact congrArg (fun s => Except.ok (Json.string s, rest)) String.ofList_toList
  | .array [] => rfl
  | .array (first :: others) =>
    rw [printAt_array (List.cons_ne_nil first others)] at hf ⊢
    simp only [List.length_cons, List.length_append] at hf
    have hitems := readItems_print (first :: others) (List.cons_ne_nil _ _) hv (depth + 1)
      (endsNumber_close layout depth (c := ']') (by decide) rest) (skipBlanks_lineBreak layout depth _)
      fuel (by omega)
    simp only [List.cons_append, List.append_assoc, List.nil_append]
    exact readValue_of_readItems hitems layout (depth + 1)
  | .object [] => rfl
  | .object (first :: others) =>
    rw [printAt_object (List.cons_ne_nil first others)] at hf ⊢
    simp only [List.length_cons, List.length_append] at hf
    have hmembers := readMembers_print (first :: others) (List.cons_ne_nil _ _) hv.2 (depth + 1)
      (endsNumber_close layout depth (c := '}') (by decide) rest) (skipBlanks_lineBreak layout depth _)
      fuel (by omega)
    simp only [List.cons_append, List.append_assoc, List.nil_append]
    rw [readValue_of_readMembers hmembers layout (depth + 1), merge_of_nodup hv.1, List.nil_append]

theorem readItems_print (items : List Json) (hne : items ≠ []) (hv : DistinctItems items) (depth : Nat)
    {closing tail : List Char} (hc : EndsNumber closing) (hs : skipBlanks closing = ']' :: tail)
    (fuel : Nat) (hf : 2 * (printRow layout depth items).length + 2 ≤ fuel) :
    readItems fuel (printRow layout depth items ++ closing) = .ok (items, tail) := by
  match items with
  | [] => exact absurd rfl hne
  | first :: rest =>
    obtain ⟨fuel, rfl⟩ := Nat.exists_eq_add_of_lt (Nat.lt_of_lt_of_le (Nat.succ_pos _) hf)
    rw [Nat.zero_add] at hf ⊢
    rw [printRow, List.length_append] at hf
    rw [printRow, List.append_assoc]
    -- behind the first item there is the end, or a comma and the others
    by_cases hrest : rest = []
    · have hfirst := readValue_print first hv.1 depth hc fuel (by omega)
      subst hrest
      rw [printItems, List.nil_append, readItems, hfirst]
      dsimp only
      rw [hs]
      rfl
    · rw [printItems_eq hrest, List.length_cons, List.length_append] at hf
      have hothers := readItems_print rest hrest hv.2 depth hc hs fuel (by omega)
      have hcomma := endsNumber_cons (c := ',') (by decide)
        (layout.lineBreak depth ++ (printRow layout depth rest ++ closing))
      have hfirst := readValue_print first hv.1 depth hcomma fuel (by omega)
      rw [printItems_eq hrest, List.cons_append, List.append_assoc, readItems, hfirst]
      show (readItems fuel (skipBlanks _)).map _ = _
      rw [skipBlanks_lineBreak, (starts_of_readItems hothers).skipBlanks, hothers]
      rfl

theorem readMembers_print (members : List (String × Json)) (hne : members ≠ [])
    (hv : DistinctMembers members) (depth : Nat) {closing tail : List Char} (hc : EndsNumber closing)
    (hs : skipBlanks closing = '}' :: tail) (fuel : Nat)
    (hf : 2 * (printFields layout depth members).length + 2 ≤ fuel) :
    readMembers fuel (printFields layout depth members ++ closing) = .ok (members, tail) := by
  match members with
  | [] => exact absurd rfl hne
  | (name, value) :: rest =>
    obtain ⟨fuel, rfl⟩ := Nat.exists_eq_add_of_lt (Nat.lt_of_lt_of_le (Nat.succ_pos _) hf)
    rw [Nat.zero_add] at hf ⊢
    simp only [printFields, List.length_append] at hf
    simp only [printFields, List.append_assoc]
    -- behind the first member there is the end, or a comma and the others
    by_cases hrest : rest = []
    · have hvalue := readValue_print value hv.1 depth hc fuel (by omega)
      subst hrest
      rw [printMembers, List.nil_append, readMembers_name, (starts_of_readValue hvalue).skipBlanks, hvalue]
      dsimp only [Except.bind]
      rw [hs]
      rfl
    · rw [printMembers_eq hrest, List.length_cons, List.length_append] at hf
      have hothers := readMembers_print rest hrest hv.2 depth hc hs fuel (by omega)
      have hcomma := endsNumber_cons (c := ',') (by decide)
        (layout.lineBreak depth ++ (printFields layout depth rest ++ closing))
      have hvalue := readValue_print value hv.1 depth hcomma fuel (by omega)
      obtain ⟨others, hquote⟩ := starts_of_readMembers hothers
      have hskip : skipBlanks (printFields layout depth rest ++ closing) =
          printFields layout depth rest ++ closing := by
        rw [hquote]
        rfl
      rw [printMembers_eq hrest, List.cons_append, List.append_assoc, readMembers_name,
        (starts_of_readValue hvalue).skipBlanks, hvalue]
      show (readMembers fuel (skipBlanks _)).map _ = _
      rw [skipBlanks_lineBreak, hskip, hothers]
      rfl

end

/-- **A document whose objects hold no name twice is read back from its text.** -/
theorem read_print (layout : Layout) {value : Json} (hv : value.Distinct) :
    read (value.print layout) = .ok value := by
  have hvalue : readValue (2 * (printAt layout 0 value).length + 2) (printAt layout 0 value ++ []) =
      .ok (value, []) :=
    readValue_print value hv 0 endsNumber_nil _ (Nat.le_succ _)
  rw [List.append_nil] at hvalue
  have hstarts := starts_of_readValue hvalue
  -- a value does not start with the mark that the reader refuses
  have hmark : (value.print layout).head? ≠ some '\ufeff' := by
    obtain ⟨c, rest, htext, hc⟩ := hstarts
    intro hhead
    rw [print, htext] at hhead
    cases hhead
    exact hc (by simp [NoStart])
  rw [read, if_neg hmark]
  rw [print, hstarts.skipBlanks, hvalue]
  rfl

/-- The text of a document says everything about it. -/
theorem print_injective {layout : Layout} {value value' : Json} (hv : value.Distinct)
    (hv' : value'.Distinct) (h : value.print layout = value'.print layout) : value = value' := by
  have hread := read_print layout hv
  rw [h, read_print layout hv'] at hread
  exact (Except.ok.inj hread).symm

/-! ## What is read -/

theorem mem_names_put {α : Type} {name other : String} {value : α} {members : List (String × α)} :
    other ∈ (put name value members).map (·.1) ↔ other ∈ members.map (·.1) ∨ other = name := by
  induction members with
  | nil => simp [put]
  | cons member rest ih =>
    obtain ⟨first, old⟩ := member
    unfold put
    split
    · -- the name was there already
      rename_i h
      subst h
      rw [List.map_cons, List.map_cons, List.mem_cons]
      exact ⟨fun hm => .inl hm, fun hm => hm.elim id .inl⟩
    · simp only [List.map_cons, List.mem_cons, ih, or_assoc]

theorem nodup_put {α : Type} {name : String} {value : α} {members : List (String × α)}
    (h : (members.map (·.1)).Nodup) : ((put name value members).map (·.1)).Nodup := by
  induction members with
  | nil => exact List.nodup_cons.mpr ⟨List.not_mem_nil, List.nodup_nil⟩
  | cons member rest ih =>
    obtain ⟨first, old⟩ := member
    rw [List.map_cons, List.nodup_cons] at h
    unfold put
    split
    · rename_i hname
      subst hname
      exact List.nodup_cons.mpr h
    · rename_i hname
      refine List.nodup_cons.mpr ⟨?_, ih h.2⟩
      rw [mem_names_put, not_or]
      exact ⟨h.1, hname⟩

theorem distinctMembers_put {name : String} {value : Json} {members : List (String × Json)}
    (hv : value.Distinct) (h : DistinctMembers members) : DistinctMembers (put name value members) := by
  induction members with
  | nil => exact ⟨hv, trivial⟩
  | cons member rest ih =>
    unfold put
    split
    · exact ⟨hv, h.2⟩
    · exact ⟨h.1, ih h.2⟩

/-- Setting members one after another leaves no name twice. -/
theorem distinct_merge {members added : List (String × Json)} (h : (Json.object members).Distinct)
    (ha : DistinctMembers added) : (Json.object (merge members added)).Distinct := by
  induction added generalizing members with
  | nil => exact h
  | cons member rest ih => exact ih ⟨nodup_put h.1, distinctMembers_put ha.1 h.2⟩ ha.2

theorem distinct_of_readWord? {text : List Char} {found : Json × List Char}
    (h : readWord? text = some found) : found.1.Distinct := by
  unfold readWord? at h
  split at h <;> cases h <;> trivial

theorem exists_of_map_eq_ok {ε α β : Type} {step : Except ε α} {f : α → β} {found : β}
    (h : step.map f = .ok found) : ∃ taken, step = .ok taken ∧ f taken = found := by
  cases step with
  | error fault => cases h
  | ok taken => exact ⟨taken, rfl, Except.ok.inj h⟩

mutual

theorem distinct_of_readValue (fuel : Nat) {text : List Char} {found : Json × List Char}
    (h : readValue fuel text = .ok found) : found.1.Distinct := by
  match fuel with
  | 0 =>
    rw [readValue] at h
    cases h
  | fuel + 1 =>
    rw [readValue.eq_def] at h
    dsimp only at h
    split at h
    · obtain ⟨taken, -, rfl⟩ := exists_of_map_eq_ok h
      trivial
    · split at h
      · cases h
        trivial
      · obtain ⟨taken, hread, rfl⟩ := exists_of_map_eq_ok h
        exact distinct_of_readItems fuel hread
    · split at h
      · cases h
        exact ⟨List.nodup_nil, trivial⟩
      · -- a name that is read once more takes the new value, and stays where it was
        obtain ⟨taken, hread, rfl⟩ := exists_of_map_eq_ok h
        exact distinct_merge ⟨List.nodup_nil, trivial⟩ (distinct_of_readMembers fuel hread)
    · split at h
      · rename_i hword
        cases h
        exact distinct_of_readWord? hword
      · split at h
        · cases h
          trivial
        · cases h

theorem distinct_of_readItems (fuel : Nat) {text : List Char} {found : List Json × List Char}
    (h : readItems fuel text = .ok found) : DistinctItems found.1 := by
  match fuel with
  | 0 =>
    rw [readItems] at h
    cases h
  | fuel + 1 =>
    rw [readItems] at h
    split at h
    · cases h
    · rename_i item rest hitem
      have hdistinct := distinct_of_readValue fuel hitem
      split at h
      · cases h
        exact ⟨hdistinct, trivial⟩
      · obtain ⟨taken, hread, rfl⟩ := exists_of_map_eq_ok h
        exact ⟨hdistinct, distinct_of_readItems fuel hread⟩
      · cases h

theorem distinct_of_readMembers (fuel : Nat) {text : List Char}
    {found : List (String × Json) × List Char} (h : readMembers fuel text = .ok found) :
    DistinctMembers found.1 := by
  match fuel with
  | 0 =>
    rw [readMembers] at h
    cases h
  | fuel + 1 =>
    rw [readMembers.eq_def] at h
    dsimp only at h
    split at h
    · split at h
      · cases h
      · split at h
        · split at h
          · cases h
          · rename_i value rest hmember
            have hdistinct := distinct_of_readValue fuel hmember
            split at h
            · cases h
              exact ⟨hdistinct, trivial⟩
            · obtain ⟨taken, hread, rfl⟩ := exists_of_map_eq_ok h
              exact ⟨hdistinct, distinct_of_readMembers fuel hread⟩
            · cases h
        · cases h
    · cases h

end

/-- **A document that is read holds no name twice in an object.** -/
theorem distinct_of_read {text : List Char} {value : Json} (h : read text = .ok value) : value.Distinct := by
  unfold read at h
  split at h
  · cases h
  · split at h
    · cases h
    · rename_i hread
      split at h
      · cases h
        exact distinct_of_readValue _ hread
      · cases h

end Template.Json

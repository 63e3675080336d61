import Template.Proofs.Balance

/-!
# `Template.Proofs.Spans` — tokens by the pairs of braces that match

A text is read from the left: two opening braces open, two closing ones close if something is open, and any
other character stands for itself. Each closing pair belongs to the opening pair that was opened last. What
stands from an opening pair to its closing pair is a span, and a span is complete if all the opening pairs
around it are closed in the end.

This is one reading of the whole text, unlike that of the scanner, which reads interiors anew. Both find the
same tokens at the same places (`exists_sites`).

## Contents
- `Span`, `spans`, `StandsAt` — spans by the matching of pairs, and the places where a complete one stands.
- `spans_bracket`, `standsAt_bracket` — a token, and what follows it.
- `Sites`, `exists_sites` — the scanner's tokens with their places.
- `tokens_are_complete_spans` — the tokens of a text are its complete spans.
-/

namespace Template.Token

/-! ## Spans -/

/-- A stretch of a text from an opening pair of braces to the closing pair that belongs to it. -/
structure Span where
  /-- The place of the opening pair. -/
  start : Nat
  /-- The place behind the closing pair. -/
  stop : Nat
  /-- The places of the opening pairs around it: those that were open when it was opened, the last one
  first. -/
  around : List Nat
deriving DecidableEq

/-- The spans that are closed in the rest of a text, which starts at a place; `opened` are the places of the
opening pairs that are open there, the last one first. -/
def spansFrom (place : Nat) (opened : List Nat) : List Char → List Span
  | '{' :: '{' :: rest => spansFrom (place + 2) (place :: opened) rest
  | '}' :: '}' :: rest =>
    match opened with
    | [] => spansFrom (place + 1) [] ('}' :: rest)
    | start :: around =>
      { start, stop := place + 2, around } :: spansFrom (place + 2) around rest
  | _ :: rest => spansFrom (place + 1) opened rest
  | [] => []

/-- The spans of a text, in the order in which they are closed. -/
def spans (text : List Char) : List Span :=
  spansFrom 0 [] text

/-- What stands in a text from the start of a span to its end. -/
def Span.cut (span : Span) (text : List Char) : List Char :=
  (text.drop span.start).take (span.stop - span.start)

/-- The pair that is opened at the place is closed. -/
def Closes (text : List Char) (place : Nat) : Prop :=
  ∃ span ∈ spans text, span.start = place

instance (text : List Char) (place : Nat) : Decidable (Closes text place) :=
  inferInstanceAs (Decidable (∃ span ∈ spans text, span.start = place))

/-- All opening pairs around the span are closed. -/
def Span.Complete (span : Span) (text : List Char) : Prop :=
  ∀ place ∈ span.around, Closes text place

instance (span : Span) (text : List Char) : Decidable (span.Complete text) :=
  inferInstanceAs (Decidable (∀ place ∈ span.around, Closes text place))

/-- A complete span that starts at the place reads `token`. -/
def StandsAt (text : List Char) (place : Nat) (token : List Char) : Prop :=
  ∃ span ∈ spans text, span.Complete text ∧ span.start = place ∧ span.cut text = token

instance (text : List Char) (place : Nat) (token : List Char) : Decidable (StandsAt text place token) :=
  inferInstanceAs (Decidable (∃ span ∈ spans text, span.Complete text ∧ span.start = place ∧
    span.cut text = token))

/-- The first token has a start in front of every start of the second one. -/
def StartsBefore (text : List Char) (first second : List Char) : Prop :=
  ∃ place, StandsAt text place first ∧ ∀ other, StandsAt text other second → place < other

/-! ## Matching pairs -/

/-- The span in a text that starts later. -/
def Span.shift (k : Nat) (span : Span) : Span where
  start := span.start + k
  stop := span.stop + k
  around := span.around.map (· + k)

/-- The span with further pairs around it. -/
def Span.under (outer : List Nat) (span : Span) : Span :=
  { span with around := span.around ++ outer }

theorem spansFrom_open (place : Nat) (opened : List Nat) (rest : List Char) :
    spansFrom place opened ('{' :: '{' :: rest) = spansFrom (place + 2) (place :: opened) rest := by
  rw [spansFrom]

theorem spansFrom_close (place start : Nat) (around : List Nat) (rest : List Char) :
    spansFrom place (start :: around) ('}' :: '}' :: rest) =
      { start, stop := place + 2, around } :: spansFrom (place + 2) around rest := by
  rw [spansFrom]

theorem spansFrom_alone (place : Nat) (opened : List Nat) {c : Char} {rest : List Char}
    (h : Alone c rest) : spansFrom place opened (c :: rest) = spansFrom (place + 1) opened rest := by
  rw [spansFrom]
  · intro tail hc hrest
    exact (h _ tail hrest).1 ⟨hc, rfl⟩
  · intro tail hc hrest
    exact (h _ tail hrest).2 ⟨hc, rfl⟩

/-- With nothing open, whatever does not open is passed over. -/
theorem spansFrom_cons (place : Nat) {c : Char} {rest : List Char}
    (h : ¬ ∃ tail, c = '{' ∧ rest = '{' :: tail) :
    spansFrom place [] (c :: rest) = spansFrom (place + 1) [] rest := by
  rcases alone_or_pair c rest with hc | hopen | ⟨tail, rfl, rfl⟩
  · exact spansFrom_alone place [] hc
  · exact absurd hopen h
  · rw [spansFrom]

/-- Where a text starts shows in the places only. -/
theorem spansFrom_shift (k place : Nat) (opened : List Nat) (text : List Char) :
    spansFrom (place + k) (opened.map (· + k)) text = (spansFrom place opened text).map (Span.shift k) := by
  fun_induction spansFrom place opened text with
  | case1 place opened rest ih => rw [spansFrom_open, ← ih, List.map_cons, Nat.add_right_comm]
  | case2 place rest ih =>
    have hstray : ¬ ∃ tail, '}' = '{' ∧ '}' :: rest = '{' :: tail := by simp
    rw [List.map_nil, spansFrom_cons _ hstray, ← ih, Nat.add_right_comm, List.map_nil]
  | case3 place rest start around ih =>
    rw [List.map_cons, spansFrom_close, List.map_cons, ← ih, Nat.add_right_comm]
    rfl
  | case4 place opened c rest hopen hclose ih =>
    have hc : Alone c rest := .of_not_pair hopen hclose
    rw [spansFrom_alone _ _ hc, ← ih, Nat.add_right_comm]
  | case5 => rfl

/-- A reading from any place is that from the start, moved. -/
theorem spansFrom_eq_shift (place : Nat) (text : List Char) :
    spansFrom place [] text = (spans text).map (Span.shift place) := by
  have h := spansFrom_shift place 0 [] text
  rw [Nat.zero_add] at h
  exact h

/-- **Balanced text is read alike whatever is open around it**, and leaves that open. -/
theorem spansFrom_balanced {inside : List Char} (h : Balanced inside) (place : Nat) (opened : List Nat)
    (rest : List Char) :
    spansFrom place opened (inside ++ '}' :: rest) =
      (spansFrom place [] inside).map (Span.under opened) ++
        spansFrom (place + inside.length) opened ('}' :: rest) := by
  induction h generalizing place opened rest with
  | nil => rfl
  | @plain c inside hc _ ih =>
    rw [List.cons_append, spansFrom_alone _ _ (hc.append rest), ih, spansFrom_alone _ _ hc.of_append,
      List.length_cons, Nat.add_right_comm, Nat.add_assoc]
  | @token inner inside hinner _ ihInner ihRest =>
    -- both readings go through the token with its own pair open, and then on behind it
    have hboth : ∀ opened tail, spansFrom place opened (bracket inner ++ tail) =
        (spansFrom (place + 2) [] inner).map (Span.under (place :: opened)) ++
          { start := place, stop := place + 2 + inner.length + 2, around := opened } ::
            spansFrom (place + 2 + inner.length + 2) opened tail := by
      intro opened tail
      rw [bracket_append, spansFrom_open, ihInner, spansFrom_close]
    have hunder : Span.under opened ∘ Span.under [place] = Span.under (place :: opened) := by
      funext span
      simp [Span.under]
    have hplace : place + (bracket inner ++ inside).length = place + 2 + inner.length + 2 + inside.length := by
      rw [List.length_append, length_bracket]
      omega
    rw [List.append_assoc, hboth, hboth, ihRest, List.map_append, List.map_map, hunder, List.map_cons,
      List.append_assoc, List.cons_append, hplace]
    rfl

/-- The spans of a token and of what follows it. -/
theorem spans_bracket {inside : List Char} (h : Balanced inside) (rest : List Char) :
    spans (bracket inside ++ rest) =
      (spans inside).map (Span.under [0] ∘ Span.shift 2) ++
        { start := 0, stop := inside.length + 4, around := [] } ::
          (spans rest).map (Span.shift (inside.length + 4)) := by
  have hstop : 0 + 2 + inside.length + 2 = inside.length + 4 := by omega
  rw [spans, bracket_append, spansFrom_open, spansFrom_balanced h, spansFrom_close, hstop,
    spansFrom_eq_shift, spansFrom_eq_shift, List.map_map]

/-- What is opened in front of unclosed text stays around everything in it. -/
theorem around_of_unclosed {text : List Char} (h : Unclosed text) {place : Nat} {opened : List Nat}
    {span : Span} (hs : span ∈ spansFrom place opened text) :
    place ≤ span.start ∧ ∀ outer ∈ opened, outer ∈ span.around := by
  induction h generalizing place opened with
  | nil => exact absurd hs List.not_mem_nil
  | plain hc _ ih =>
    rw [spansFrom_alone _ _ hc] at hs
    have hspan := ih hs
    exact ⟨by omega, hspan.2⟩
  | @token inner rest hinner _ ih =>
    rw [bracket_append, spansFrom_open, spansFrom_balanced hinner, spansFrom_close,
      spansFrom_eq_shift, List.map_map] at hs
    rcases List.mem_append.mp hs with hs | hs
    · obtain ⟨own, -, rfl⟩ := List.mem_map.mp hs
      refine ⟨?_, ?_⟩
      · show place ≤ own.start + (place + 2)
        omega
      · intro outer houter
        exact List.mem_append_right _ (List.mem_cons_of_mem _ houter)
    · rcases List.mem_cons.mp hs with rfl | hs
      · exact ⟨Nat.le_refl _, fun outer houter => houter⟩
      · have hspan := ih hs
        exact ⟨by omega, hspan.2⟩
  | opening _ ih =>
    rw [spansFrom_open] at hs
    have hspan := ih hs
    exact ⟨by omega, fun outer houter => hspan.2 outer (List.mem_cons_of_mem _ houter)⟩

/-- A span lies in its text. -/
theorem within_of_mem_spansFrom {place : Nat} {opened : List Nat} {text : List Char} {span : Span}
    (h : span ∈ spansFrom place opened text) (ho : ∀ outer ∈ opened, outer < place + text.length) :
    span.start < place + text.length ∧ span.stop ≤ place + text.length ∧
      ∀ outer ∈ span.around, outer < place + text.length := by
  fun_induction spansFrom place opened text with
  | case1 place opened rest ih =>
    have hlength : place + ('{' :: '{' :: rest).length = place + 2 + rest.length := by simp; omega
    rw [hlength] at ho ⊢
    apply ih h
    intro outer houter
    rcases List.mem_cons.mp houter with rfl | houter
    · omega
    · exact ho outer houter
  | case2 place rest ih =>
    have hlength : place + ('}' :: '}' :: rest).length = place + 1 + ('}' :: rest).length := by simp; omega
    rw [hlength]
    exact ih h fun outer houter => absurd houter List.not_mem_nil
  | case3 place rest start around ih =>
    have hlength : place + ('}' :: '}' :: rest).length = place + 2 + rest.length := by simp; omega
    rw [hlength] at ho ⊢
    have haround : ∀ outer ∈ around, outer < place + 2 + rest.length :=
      fun outer houter => ho outer (List.mem_cons_of_mem _ houter)
    rcases List.mem_cons.mp h with rfl | h
    · exact ⟨ho start List.mem_cons_self, Nat.le_add_right _ _, haround⟩
    · exact ih h haround
  | case4 place opened c rest _ _ ih =>
    have hlength : place + (c :: rest).length = place + 1 + rest.length := by simp; omega
    rw [hlength] at ho ⊢
    exact ih h ho
  | case5 => exact absurd h List.not_mem_nil

theorem within_of_mem_spans {text : List Char} {span : Span} (h : span ∈ spans text) :
    span.start < text.length ∧ span.stop ≤ text.length ∧ ∀ outer ∈ span.around, outer < text.length := by
  have hwithin := within_of_mem_spansFrom h fun outer houter => absurd houter List.not_mem_nil
  rwa [Nat.zero_add] at hwithin

/-- What a span reads does not change when text is put around it. -/
theorem cut_shift {text : List Char} {span : Span} (h : span ∈ spans text) (before after : List Char) :
    (span.shift before.length).cut (before ++ text ++ after) = span.cut text := by
  obtain ⟨hstart, hstop, -⟩ := within_of_mem_spans h
  have hlength : span.stop + before.length - (span.start + before.length) = span.stop - span.start := by omega
  show ((before ++ text ++ after).drop (span.start + before.length)).take
    (span.stop + before.length - (span.start + before.length)) = _
  rw [hlength, List.append_assoc, Nat.add_comm, ← List.drop_drop, List.drop_left,
    List.drop_append_of_le_length (Nat.le_of_lt hstart), List.take_append_of_le_length]
  · rfl
  · rw [List.length_drop]
    omega

/-! ## Where tokens stand -/

theorem lt_of_standsAt {text token : List Char} {place : Nat} (h : StandsAt text place token) :
    place < text.length := by
  obtain ⟨span, hspan, -, rfl, -⟩ := h
  exact (within_of_mem_spans hspan).1

/-- A span is complete in a text exactly if it is where the text is a part of another one, in which the same
    pairs are closed and further ones around them. -/
theorem complete_moved {text whole : List Char} {k : Nat} {outer : List Nat}
    (hk : ∀ place < text.length, Closes whole (place + k) ↔ Closes text place)
    (ho : ∀ place ∈ outer, Closes whole place) {span : Span} (hs : span ∈ spans text) :
    ((span.shift k).under outer).Complete whole ↔ span.Complete text := by
  have haround := (within_of_mem_spans hs).2.2
  constructor
  · intro hc place hplace
    apply (hk place (haround place hplace)).mp
    exact hc _ (List.mem_append_left _ (List.mem_map_of_mem hplace))
  · intro hc place hplace
    rcases List.mem_append.mp hplace with hplace | hplace
    · obtain ⟨own, hown, rfl⟩ := List.mem_map.mp hplace
      exact (hk own (haround own hown)).mpr (hc own hown)
    · exact ho place hplace

/-- A character in front moves all tokens. -/
theorem standsAt_cons {c : Char} {rest : List Char} (h : ¬ ∃ tail, c = '{' ∧ rest = '{' :: tail)
    {place : Nat} {token : List Char} :
    StandsAt (c :: rest) place token ↔ ∃ own, place = own + 1 ∧ StandsAt rest own token := by
  have hspans : spans (c :: rest) = (spans rest).map (Span.shift 1) := by
    rw [spans, spansFrom_cons 0 h, spansFrom_eq_shift]
  have hcut : ∀ span ∈ spans rest, (span.shift 1).cut (c :: rest) = span.cut rest := by
    intro span hspan
    have hcut := cut_shift hspan [c] []
    rwa [List.append_nil] at hcut
  have hcloses : ∀ own < rest.length, Closes (c :: rest) (own + 1) ↔ Closes rest own := by
    intro own _
    unfold Closes
    rw [hspans]
    constructor
    · rintro ⟨span, hspan, hstart⟩
      obtain ⟨other, hother, rfl⟩ := List.mem_map.mp hspan
      exact ⟨other, hother, Nat.succ.inj hstart⟩
    · rintro ⟨span, hspan, rfl⟩
      exact ⟨span.shift 1, List.mem_map_of_mem hspan, rfl⟩
  have hcomplete : ∀ span ∈ spans rest, (span.shift 1).Complete (c :: rest) ↔ span.Complete rest := by
    intro span hspan
    rw [← complete_moved hcloses (fun _ h => absurd h List.not_mem_nil) hspan]
    simp [Span.under]
  constructor
  · rintro ⟨span, hspan, hc, rfl, rfl⟩
    rw [hspans] at hspan
    obtain ⟨own, hown, rfl⟩ := List.mem_map.mp hspan
    exact ⟨own.start, rfl, own, hown, (hcomplete own hown).mp hc, rfl, (hcut own hown).symm⟩
  · rintro ⟨own, rfl, span, hspan, hc, rfl, rfl⟩
    refine ⟨span.shift 1, ?_, (hcomplete span hspan).mpr hc, rfl, hcut span hspan⟩
    rw [hspans]
    exact List.mem_map_of_mem hspan

/-- Behind an opening pair that is not closed no token stands, and neither does one at the pair. -/
theorem not_standsAt_unclosed {rest : List Char} (h : Unclosed rest) (place : Nat) (token : List Char) :
    ¬ StandsAt ('{' :: '{' :: rest) place token := by
  rintro ⟨span, hspan, hcomplete, -, -⟩
  have hspans : spans ('{' :: '{' :: rest) = spansFrom 2 [0] rest := spansFrom_open 0 [] rest
  rw [hspans] at hspan
  obtain ⟨outer, houter, hstart⟩ := hcomplete 0 ((around_of_unclosed h hspan).2 0 List.mem_cons_self)
  rw [hspans] at houter
  have := (around_of_unclosed h houter).1
  omega

section

variable {inside : List Char} (h : Balanced inside) {rest : List Char}

include h

theorem closes_bracket {place : Nat} :
    Closes (bracket inside ++ rest) place ↔
      (∃ own, place = own + 2 ∧ Closes inside own) ∨ place = 0 ∨
        ∃ own, place = own + (inside.length + 4) ∧ Closes rest own := by
  unfold Closes
  rw [spans_bracket h]
  constructor
  · rintro ⟨span, hspan, rfl⟩
    rcases List.mem_append.mp hspan with hspan | hspan
    · obtain ⟨own, hown, rfl⟩ := List.mem_map.mp hspan
      exact .inl ⟨own.start, rfl, own, hown, rfl⟩
    · rcases List.mem_cons.mp hspan with rfl | hspan
      · exact .inr (.inl rfl)
      · obtain ⟨own, hown, rfl⟩ := List.mem_map.mp hspan
        exact .inr (.inr ⟨own.start, rfl, own, hown, rfl⟩)
  · rintro (⟨_, rfl, own, hown, rfl⟩ | rfl | ⟨_, rfl, own, hown, rfl⟩)
    · exact ⟨_, List.mem_append_left _ (List.mem_map_of_mem hown), rfl⟩
    · exact ⟨_, List.mem_append_right _ List.mem_cons_self, rfl⟩
    · exact ⟨_, List.mem_append_right _ (List.mem_cons_of_mem _ (List.mem_map_of_mem hown)), rfl⟩

theorem closes_inside {place : Nat} (hplace : place < inside.length) :
    Closes (bracket inside ++ rest) (place + 2) ↔ Closes inside place := by
  rw [closes_bracket h]
  constructor
  · rintro (⟨own, hown, hcloses⟩ | hzero | ⟨own, hown, -⟩)
    · obtain rfl : place = own := by omega
      exact hcloses
    · omega
    · omega
  · intro hcloses
    exact .inl ⟨place, rfl, hcloses⟩

theorem closes_behind {place : Nat} :
    Closes (bracket inside ++ rest) (place + (inside.length + 4)) ↔ Closes rest place := by
  rw [closes_bracket h]
  constructor
  · rintro (⟨own, hown, span, hspan, rfl⟩ | hzero | ⟨own, hown, hcloses⟩)
    · have := (within_of_mem_spans hspan).1
      omega
    · omega
    · obtain rfl : place = own := by omega
      exact hcloses
  · intro hcloses
    exact .inr (.inr ⟨place, rfl, hcloses⟩)

/-- **Where a text starts with a token**, that token stands there, and the tokens inside of it and behind it
    stand where they did in themselves. -/
theorem standsAt_bracket {place : Nat} {token : List Char} :
    StandsAt (bracket inside ++ rest) place token ↔
      (place = 0 ∧ token = bracket inside) ∨ (∃ own, place = own + 2 ∧ StandsAt inside own token) ∨
        ∃ own, place = own + (inside.length + 4) ∧ StandsAt rest own token := by
  have hinside : ∀ span ∈ spans inside,
      (((span.shift 2).under [0]).Complete (bracket inside ++ rest) ↔ span.Complete inside) ∧
        ((span.shift 2).under [0]).cut (bracket inside ++ rest) = span.cut inside := by
    intro span hspan
    refine ⟨complete_moved (fun place hplace => closes_inside h hplace) ?_ hspan, ?_⟩
    · intro place hplace
      rw [List.mem_singleton.mp hplace, closes_bracket h]
      exact .inr (.inl rfl)
    · have hcut := cut_shift hspan ['{', '{'] ('}' :: '}' :: rest)
      rw [bracket_append]
      exact hcut
  have hbehind : ∀ span ∈ spans rest,
      ((span.shift (inside.length + 4)).Complete (bracket inside ++ rest) ↔ span.Complete rest) ∧
        (span.shift (inside.length + 4)).cut (bracket inside ++ rest) = span.cut rest := by
    intro span hspan
    constructor
    · rw [← complete_moved (fun place _ => closes_behind h) (fun _ h => absurd h List.not_mem_nil) hspan]
      simp [Span.under]
    · have hcut := cut_shift hspan (bracket inside) []
      rwa [length_bracket, List.append_nil] at hcut
  have hwhole : ({ start := 0, stop := inside.length + 4, around := [] } : Span).cut
      (bracket inside ++ rest) = bracket inside := by
    show (bracket inside ++ rest).take (inside.length + 4) = bracket inside
    rw [← length_bracket, List.take_left]
  unfold StandsAt
  rw [spans_bracket h]
  constructor
  · rintro ⟨span, hspan, hc, rfl, rfl⟩
    rcases List.mem_append.mp hspan with hspan | hspan
    · obtain ⟨own, hown, rfl⟩ := List.mem_map.mp hspan
      obtain ⟨hcomplete, hcut⟩ := hinside own hown
      exact .inr (.inl ⟨own.start, rfl, own, hown, hcomplete.mp hc, rfl, hcut.symm⟩)
    · rcases List.mem_cons.mp hspan with rfl | hspan
      · exact .inl ⟨rfl, hwhole⟩
      · obtain ⟨own, hown, rfl⟩ := List.mem_map.mp hspan
        obtain ⟨hcomplete, hcut⟩ := hbehind own hown
        exact .inr (.inr ⟨own.start, rfl, own, hown, hcomplete.mp hc, rfl, hcut.symm⟩)
  · rintro (⟨rfl, rfl⟩ | ⟨_, rfl, own, hown, hc, rfl, rfl⟩ | ⟨_, rfl, own, hown, hc, rfl, rfl⟩)
    · exact ⟨_, List.mem_append_right _ List.mem_cons_self, fun _ h => absurd h List.not_mem_nil, rfl, hwhole⟩
    · obtain ⟨hcomplete, hcut⟩ := hinside own hown
      exact ⟨_, List.mem_append_left _ (List.mem_map_of_mem hown), hcomplete.mpr hc, rfl, hcut⟩
    · obtain ⟨hcomplete, hcut⟩ := hbehind own hown
      exact ⟨_, List.mem_append_right _ (List.mem_cons_of_mem _ (List.mem_map_of_mem hown)),
        hcomplete.mpr hc, rfl, hcut⟩

end

/-! ## The scanner's tokens with their places -/

/-- Tokens with their places, in a text that starts later. -/
def moved (k : Nat) (sites : List (Nat × List Char)) : List (Nat × List Char) :=
  sites.map fun site => (site.1 + k, site.2)

theorem mem_moved {k place : Nat} {token : List Char} {sites : List (Nat × List Char)} :
    (place, token) ∈ moved k sites ↔ ∃ own, place = own + k ∧ (own, token) ∈ sites := by
  unfold moved
  constructor
  · intro hmem
    obtain ⟨site, hsite, heq⟩ := List.mem_map.mp hmem
    cases heq
    exact ⟨site.1, rfl, hsite⟩
  · rintro ⟨own, rfl, hmem⟩
    exact List.mem_map_of_mem hmem

theorem tokens_moved (k : Nat) (sites : List (Nat × List Char)) :
    (moved k sites).map (·.2) = sites.map (·.2) := by
  unfold moved
  rw [List.map_map]
  rfl

/-- The places of the second token stand behind that of the first. -/
abbrev InOrder (sites : List (Nat × List Char)) : Prop :=
  sites.Pairwise fun first second => first.1 < second.1

theorem inOrder_moved (k : Nat) {sites : List (Nat × List Char)} (h : InOrder sites) :
    InOrder (moved k sites) := by
  unfold InOrder moved
  rw [List.pairwise_map]
  exact h.imp fun hlt => Nat.add_lt_add_right hlt k

/-- The occurrences of tokens that the scanner finds, each with its place. -/
structure Sites (text : List Char) (sites : List (Nat × List Char)) : Prop where
  tokens : sites.map (·.2) = occurrences text
  sorted : InOrder sites
  stands : ∀ place token, (place, token) ∈ sites ↔ StandsAt text place token

/-- A text in which the scanner finds nothing, and no token stands. -/
theorem sites_nil {text : List Char} (hocc : occurrences text = [])
    (hstands : ∀ place token, ¬ StandsAt text place token) : Sites text [] where
  tokens := hocc.symm
  sorted := List.Pairwise.nil
  stands place token := iff_of_false List.not_mem_nil (hstands place token)

theorem sites_cons {c : Char} {rest : List Char} (h : ¬ ∃ tail, c = '{' ∧ rest = '{' :: tail)
    {sites : List (Nat × List Char)} (hs : Sites rest sites) : Sites (c :: rest) (moved 1 sites) where
  tokens := by rw [tokens_moved, occurrences_cons h, hs.tokens]
  sorted := inOrder_moved 1 hs.sorted
  stands := by
    intro place token
    rw [mem_moved, standsAt_cons h]
    simp only [hs.stands]

theorem sites_bracket {inside rest : List Char} (h : Balanced inside) {inner behind : List (Nat × List Char)}
    (hi : Sites inside inner) (hr : Sites rest behind) :
    Sites (bracket inside ++ rest)
      ((0, bracket inside) :: (moved 2 inner ++ moved (inside.length + 4) behind)) where
  tokens := by
    rw [occurrences_bracket h, List.map_cons, List.map_append, tokens_moved, tokens_moved, hi.tokens,
      hr.tokens]
  sorted := by
    refine List.pairwise_cons.mpr ⟨?_, List.pairwise_append.mpr
      ⟨inOrder_moved 2 hi.sorted, inOrder_moved _ hr.sorted, ?_⟩⟩
    · rintro ⟨place, token⟩ hsite
      rcases List.mem_append.mp hsite with hsite | hsite
      · obtain ⟨own, rfl, -⟩ := mem_moved.mp hsite
        exact Nat.zero_lt_succ _
      · obtain ⟨own, rfl, -⟩ := mem_moved.mp hsite
        exact Nat.zero_lt_succ _
    · -- what stands inside of the token stands in front of what stands behind it
      rintro ⟨place, token⟩ hfirst ⟨place', token'⟩ hsecond
      obtain ⟨own, rfl, hown⟩ := mem_moved.mp hfirst
      obtain ⟨other, rfl, -⟩ := mem_moved.mp hsecond
      have hlt := lt_of_standsAt ((hi.stands own token).mp hown)
      show own + 2 < other + (inside.length + 4)
      omega
  stands := by
    intro place token
    rw [standsAt_bracket h, List.mem_cons, List.mem_append, mem_moved, mem_moved, Prod.mk.injEq]
    simp only [hi.stands, hr.stands]

/-- **The scanner finds each token at every place where it stands, in the order of the places.** -/
theorem exists_sites (text : List Char) : ∃ sites, Sites text sites := by
  induction text using scan_induction with
  | nil =>
    refine ⟨[], sites_nil occurrences_nil ?_⟩
    rintro place token ⟨span, hspan, -⟩
    exact absurd hspan List.not_mem_nil
  | plain c rest h ih =>
    obtain ⟨sites, hsites⟩ := ih
    exact ⟨_, sites_cons h hsites⟩
  | token inside rest h ihInside ihRest =>
    obtain ⟨inner, hinner⟩ := ihInside
    obtain ⟨behind, hbehind⟩ := ihRest
    exact ⟨_, sites_bracket h hinner hbehind⟩
  | unclosed rest h => exact ⟨[], sites_nil (occurrences_unclosed h) (not_standsAt_unclosed h)⟩

/-- A token is found exactly if it stands somewhere. -/
theorem mem_occurrences_iff {text token : List Char} :
    token ∈ occurrences text ↔ ∃ place, StandsAt text place token := by
  obtain ⟨sites, hsites⟩ := exists_sites text
  rw [← hsites.tokens, List.mem_map]
  constructor
  · rintro ⟨⟨place, token⟩, hmem, rfl⟩
    exact ⟨place, (hsites.stands place token).mp hmem⟩
  · rintro ⟨place, hstands⟩
    exact ⟨(place, token), (hsites.stands place token).mpr hstands, rfl⟩

/-! ## Each text once -/

/-- Of a row in order, what is left when repetitions are dropped is in the order of the first places. -/
theorem pairwise_eraseDups {sites : List (Nat × List Char)} (h : InOrder sites) :
    (sites.map (·.2)).eraseDups.Pairwise fun first second =>
      ∃ place, (place, first) ∈ sites ∧ ∀ other, (other, second) ∈ sites → place < other := by
  match sites with
  | [] => exact List.Pairwise.nil
  | (place, token) :: sites =>
    obtain ⟨hfirst, hrest⟩ := List.pairwise_cons.mp h
    -- the rest is that of the row without the token at hand
    have hfilter : (sites.map (·.2)).filter (fun other => !other == token) =
        (sites.filter fun site => !site.2 == token).map (·.2) := by
      rw [List.filter_map]
      rfl
    have hkept : ∀ {other}, other ∈ ((sites.filter fun site => !site.2 == token).map (·.2)).eraseDups →
        other ≠ token := by
      intro other hother
      obtain ⟨site, hsite, rfl⟩ := List.mem_map.mp (List.mem_eraseDups.mp hother)
      have hne := (List.mem_filter.mp hsite).2
      simpa using hne
    have hbehind : ∀ {other here}, other ≠ token → (here, other) ∈ (place, token) :: sites →
        (here, other) ∈ sites := by
      intro other here hne hmem
      rcases List.mem_cons.mp hmem with heq | hmem
      · exact absurd (Prod.mk.inj heq).2 hne
      · exact hmem
    have hshort := List.length_filter_le (fun site : Nat × List Char => !site.2 == token) sites
    rw [List.map_cons, List.eraseDups_cons, hfilter, List.pairwise_cons]
    constructor
    · intro other hother
      refine ⟨place, List.mem_cons_self, ?_⟩
      intro here hhere
      exact hfirst _ (hbehind (hkept hother) hhere)
    · refine (pairwise_eraseDups (hrest.filter _)).imp_of_mem ?_
      rintro first second - hsecond ⟨here, hhere, hall⟩
      refine ⟨here, List.mem_cons_of_mem _ (List.mem_filter.mp hhere).1, ?_⟩
      intro there hthere
      have hne := hkept hsecond
      exact hall there (List.mem_filter.mpr ⟨hbehind hne hthere, by simpa using hne⟩)
termination_by sites.length

/-! ## The tokens of a text -/

/-- **The tokens of a text are its complete spans.** Every text has a list of tokens, in which no text stands
    twice; a text stands in it exactly if some complete span reads it, and the texts are in the order of their
    first starts. The tokens of a token are itself and then those of its interior, and all of them are tokens of
    the text. -/
theorem tokens_are_complete_spans (text : List Char) :
    (tokens text).Nodup ∧
    (∀ token, token ∈ tokens text ↔ ∃ place, StandsAt text place token) ∧
    (tokens text).Pairwise (StartsBefore text) ∧
    ∀ token ∈ tokens text,
      tokens token = token :: tokens (interior token) ∧ ∀ inner ∈ tokens token, inner ∈ tokens text := by
  refine ⟨Text.nodup_eraseDups _, ?_, ?_, ?_⟩
  · intro token
    rw [tokens, List.mem_eraseDups, mem_occurrences_iff]
  · obtain ⟨sites, hsites⟩ := exists_sites text
    have hpairs := pairwise_eraseDups hsites.sorted
    simp only [hsites.stands, hsites.tokens] at hpairs
    exact hpairs
  · intro token htoken
    rw [tokens, List.mem_eraseDups] at htoken
    obtain ⟨inside, hinside, rfl, hall⟩ := exists_balanced_of_mem htoken
    refine ⟨by rw [interior_bracket, tokens_bracket_self hinside], ?_⟩
    intro inner hinner
    rw [tokens, List.mem_eraseDups] at hinner ⊢
    exact hall inner hinner

/-- A token with another one inside of it, a stray brace at either end of that, and tokens in front of and
    behind it, the last of which is never closed. -/
theorem tokens_are_complete_spans_stray :
    let text := ("\x7d\x7d\x7b\x7b\x7ba\x7d\x7d\x7d" ++ "\x7b\x7bb\x7b\x7b\x7ba\x7d\x7d\x7d\x7d\x7d" ++
      "\x7b\x7bc\x7b\x7b\x7ba\x7d\x7d").toList
    let token := "\x7b\x7bb\x7b\x7b\x7ba\x7d\x7d\x7d\x7d".toList
    StandsAt text 9 token ∧ token ∈ tokens text ∧ tokens token = token :: tokens (interior token) ∧
      ∀ inner ∈ tokens token, inner ∈ tokens text := by
  intro text token
  have hstands : StandsAt text 9 token := by decide
  obtain ⟨-, hmem, -, hinner⟩ := tokens_are_complete_spans text
  have htoken : token ∈ tokens text := (hmem token).mpr ⟨9, hstands⟩
  exact ⟨hstands, htoken, hinner token htoken⟩

end Template.Token

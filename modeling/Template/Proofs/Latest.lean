import Template.Proofs.Framing
import Template.Proofs.MorePasses
import Template.Proofs.Parts

/-!
# `Template.Proofs.Latest` — the value that substitution keeps

When a pass finds nothing in a text but one token, substitution keeps the value of that token beside the text. The
text goes on changing as long as there are tokens in it, while a value that was kept is dropped only by the next
pass. So it has to be shown that the two belong together in the end, wherever the passes end.

They do. A pass keeps a value only if its token is the text, up to blanks around it, and then it resolves nothing
else and the text becomes that of the value between the same blanks. If there is another pass, the value is dropped.
If there is none, no token was resolved after it. What plugins answer does not matter, nor why there is no other
pass.

## Contents
- `Filled.Shows` — a text that is that of a value, with blanks around it.
- `replaced_shows` — a token that is the whole text.
- `pass_latest`, `passes_latest` — one pass, and all of them.
- `Setting.substitute_keeps_latest`.
-/

namespace Template

variable {σ : Type}

open Token

/-- The text is that of the value, with nothing but blanks around it. -/
def Filled.Shows (filled : Filled) (value : Json) : Prop :=
  ∃ before behind, before.all Text.isBlank = true ∧ behind.all Text.isBlank = true ∧
    filled.text = before ++ value.asText ++ behind

namespace Setting

open Script

variable {setting : Setting σ} {path : Option Path} {found : List (List Char)}

/-! ## One pass -/

/-- A token becomes what is put in its place. -/
theorem replaceAll_self (inside new : List Char) : Text.replaceAll (bracket inside) new (bracket inside) = new := by
  have hreplace : Text.replaceFrom (bracket inside) new 0 (bracket inside ++ []) = new ++ [] :=
    Text.replaceFrom_append (List.cons_ne_nil _ _)
  rwa [List.append_nil, List.append_nil] at hreplace

/-- **A token that is the whole text but for blanks** occurs in it once, and leaves the text of its value. -/
theorem replaced_shows {current : Filled} {inside : List Char} (h : bracket inside = Text.trim current.text)
    (value : Json) : (replaced found current (bracket inside) value).Shows value := by
  obtain ⟨before, behind, hbefore, hbehind, htext⟩ := Text.exists_blanks_trim current.text
  refine ⟨before, behind, hbefore, hbehind, ?_⟩
  show Text.replaceAll (bracket inside) value.asText current.text = _
  rw [htext, ← h, replaceAll_framed (braceless_of_blank hbefore) (braceless_of_blank hbehind), replaceAll_self]

/-- **A pass that keeps a value has resolved one token**, and shows the value of it. -/
theorem pass_latest {text : List Char} {next : Filled} {world after : World σ} {value : Json}
    (h : (setting.pass path (tokens text) text).run world = (.ok next, after)) (hs : next.single = some value) :
    next.Shows value ∧ ∃ call, setting.callsOfPass path (tokens text) text world = [call] ∧
      (setting.resolve path call.token).run call.world = (.ok value, after) := by
  rw [pass, run_bind] at h
  rw [callsOfPass]
  rcases hcheck : (setting.checkTokens path (tokens text)).run world with ⟨failure | _, middle⟩
  · rw [hcheck] at h
    cases h
  · rw [hcheck] at h
    dsimp only at h ⊢
    by_cases hl : (tokens text).length = 1
    · obtain ⟨token, htoken⟩ := List.length_eq_one_iff.mp hl
      obtain ⟨inside, -, rfl, -⟩ := exists_balanced_of_mem_tokens (htoken ▸ List.mem_cons_self : token ∈ tokens text)
      have hinnermost : innermost [bracket inside] = [bracket inside] := by simp [innermost]
      rw [htoken, hinnermost] at h ⊢
      rw [replaceTokens, run_bind] at h
      rw [callsOfTokens]
      by_cases hin : Text.occursIn (bracket inside) text = true
      · rw [replaceToken_of_occurs hin, run_bind] at h ⊢
        rcases hresolve : (setting.resolve path (bracket inside)).run middle with ⟨failure | own, last⟩
        · rw [hresolve] at h
          cases h
        · rw [hresolve] at h
          cases h
          -- the value is kept because the token is the whole text
          have hkept : (if (bracket inside == Text.trim text) = true then some own else none) = some value := hs
          split at hkept
          · rename_i halone
            cases hkept
            refine ⟨replaced_shows (beq_iff_eq.mp halone) value, ⟨bracket inside, middle⟩, ?_, hresolve⟩
            rw [if_pos hin]
            rfl
          · cases hkept
      · rw [replaceToken_of_gone hin] at h
        cases h
        cases hs
    · have hnone : next.single = none := single_of_replaceTokens hl h
      rw [hnone] at hs
      cases hs

/-! ## All passes -/

/-- Nothing but a note is added at the end. -/
theorem eq_of_conclude {last : Filled × Bool} {filled : Filled} {world after : World σ}
    (h : (setting.conclude last).run world = (.ok filled, after)) : filled = last.1 := by
  unfold conclude at h
  split at h
  · cases h
    rfl
  · split at h
    · cases h
    · cases h
      rfl

/-- The text shows the value, and the value is that of the last call. -/
def Latest (setting : Setting σ) (path : Option Path) (calls : List (Call σ)) (filled : Filled) (value : Json) :
    Prop :=
  filled.Shows value ∧ ∃ call, calls.getLast? = some call ∧
    ((setting.resolve path call.token).run call.world).1 = .ok value

/-- What was resolved before does not matter. -/
theorem Latest.append {calls : List (Call σ)} {filled : Filled} {value : Json}
    (h : setting.Latest path calls filled value) (earlier : List (Call σ)) :
    setting.Latest path (earlier ++ calls) filled value := by
  obtain ⟨hshows, call, hlast, hvalue⟩ := h
  exact ⟨hshows, call, by rw [List.getLast?_append, hlast]; rfl, hvalue⟩

/-- **Wherever the passes end, a value that is kept is the latest one**, unless it was there before and there is no
pass at all. The induction is on the number of passes that are left: a value kept by this pass survives only if there
is none behind it. -/
theorem passes_latest {limit : Nat} {current filled : Filled} {world after : World σ} {value : Json}
    (h : (setting.passes path limit current >>= setting.conclude).run world = (.ok filled, after))
    (hs : filled.single = some value) :
    (filled = current ∧ (setting.callsOfPasses path limit current world).flatten = []) ∨
      setting.Latest path (setting.callsOfPasses path limit current world).flatten filled value := by
  induction limit generalizing current world with
  | zero =>
    have hend : (setting.conclude (current, false)).run world = (.ok filled, after) := h
    exact .inl ⟨eq_of_conclude hend, rfl⟩
  | succ limit ih =>
    by_cases ht : tokens current.text = []
    · rw [passes_of_no_tokens path _ ht] at h
      cases h
      rw [callsOfPasses_of_no_tokens _ ht]
      exact .inl ⟨rfl, rfl⟩
    · rw [passes_succ path limit ht, run_bind] at h
      rw [callsOfPasses_succ limit ht]
      rcases hpass : (setting.pass path (tokens current.text) current.text).run world with ⟨failure | next, middle⟩
      · rw [hpass] at h
        cases h
      · rw [hpass] at h
        dsimp only at h ⊢
        have hthis : filled = next → ∃ call,
            setting.callsOfPass path (tokens current.text) current.text world = [call] ∧
              setting.Latest path [call] filled value := by
          rintro rfl
          obtain ⟨hshows, call, hcall, hvalue⟩ := pass_latest hpass hs
          exact ⟨call, hcall, hshows, call, rfl, congrArg Prod.fst hvalue⟩
        right
        by_cases hsame : next.text = current.text
        · rw [if_pos hsame] at h ⊢
          cases h
          obtain ⟨call, hcall, hlatest⟩ := hthis rfl
          rw [hcall]
          exact hlatest
        · rw [if_neg hsame] at h ⊢
          rw [List.flatten_cons]
          rcases ih h with ⟨hnext, hnone⟩ | hlatest
          · obtain ⟨call, hcall, hlatest⟩ := hthis hnext
            rw [hnone, hcall]
            exact hlatest
          · exact hlatest.append _

/-! ## Texts and strings -/

/-- **The value that substitution keeps is the latest one, and the text shows it.** If substitution keeps a value
beside the text that it gives, this text is that of the value with nothing but blanks around it, and the value is that
of the last token that was resolved. So a string of a document that passes for one token, and becomes the value that
was kept, becomes the one that its text shows. -/
theorem substitute_keeps_latest (setting : Setting σ) :
    (∀ path text world filled after value,
      (setting.substitute path text).run world = (.ok filled, after) → filled.single = some value →
        filled.Shows value ∧ ∃ call, (setting.calls path text world).flatten.getLast? = some call ∧
          ((setting.resolve path call.token).run call.world).1 = .ok value) ∧
    ∀ path s world filled after value, isToken s.toList = true → 1 < (tokens s.toList).length →
      (setting.substitute (some path) s.toList).run world = (.ok filled, after) → filled.single = some value →
        (setting.fillString path s).run world = (.ok value, after) ∧ filled.Shows value := by
  have hkeeps : ∀ path text world filled after value,
      (setting.substitute path text).run world = (.ok filled, after) → filled.single = some value →
        setting.Latest path (setting.calls path text world).flatten filled value := by
    intro path text world filled after value h hs
    rw [substitute_eq_conclude] at h
    rcases passes_latest h hs with ⟨rfl, -⟩ | hlatest
    · cases hs
    · exact hlatest
  refine ⟨hkeeps, ?_⟩
  intro path s world filled after value htoken hseveral h hs
  refine ⟨?_, (hkeeps _ _ _ _ _ _ h hs).1⟩
  have hsome : (tokens s.toList).isEmpty = false := by
    rw [List.isEmpty_eq_false_iff]
    exact List.ne_nil_of_length_pos (Nat.lt_of_succ_lt hseveral)
  have hsingle : isSingle s.toList = false := by
    rw [isSingle, htoken, Bool.true_and, beq_eq_false_iff_ne]
    exact Nat.ne_of_gt hseveral
  unfold fillString
  dsimp only
  rw [hsome, hsingle, if_neg Bool.false_ne_true, if_neg Bool.false_ne_true, run_bind, h]
  dsimp only
  rw [htoken, hs]
  rfl

/-- Of two values, the string becomes the one that was found last. -/
theorem substitute_keeps_latest_counting :
    let setting := Engine.counting.setting { format := .text }
    let s := String.ofList Engine.countTwice.render
    isToken s.toList = true ∧ 1 < (tokens s.toList).length ∧
    (setting.fillString [] s).run { state := 0 } = (.ok (.number (.integer 1)), { state := 2 }) ∧
    ({ text := "1".toList, single := some (.number (.integer 1)) } : Filled).Shows (.number (.integer 1)) := by
  intro setting s
  have htext : s.toList = Engine.countTwice.render := String.toList_ofList
  have htoken : isToken s.toList = true := by decide
  have hseveral : 1 < (tokens s.toList).length := by
    rw [htext, Engine.tokens_countTwice]
    decide
  have hrun : (setting.substitute (some []) s.toList).run { state := 0 } =
      (.ok { text := "1".toList, single := some (.number (.integer 1)) }, { state := 2 }) := by
    rw [htext]
    exact Engine.substitute_countTwice (some [])
  obtain ⟨hfill, hshows⟩ := (substitute_keeps_latest setting).2 [] s { state := 0 } _ _ _ htoken hseveral hrun rfl
  exact ⟨htoken, hseveral, hfill, hshows⟩

end Setting

end Template

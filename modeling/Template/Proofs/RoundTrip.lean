import Template.Proofs.Idempotence
import Template.Proofs.Lockstep
import Template.Proofs.Walk

/-!
# `Template.Proofs.RoundTrip` — output read back

The output for a document is the text of a document again. Reading it gives the very value that was filled in, with
the members of objects in their order, numbers of their kind and strings character by character: whatever plugins
put in, stateful or not, in both orders of work and under every indentation. It takes that values are values of
documents, so that no object holds a name twice (`Registry.Proper`); what is read from a text, and what is made of
it, is then one, too (`fill_gives`).

## Contents
- `fillString_of_no_tokens`, `fill_of_no_tokens` — strings and documents that are left alone.
- `Engine.generate_reads_back` — output, documents without tokens, and values inside running text.
-/

namespace Template

variable {σ : Type}

namespace Setting

variable {setting : Setting σ}

/-! ## Documents that are left alone -/

theorem fillString_of_no_tokens (path : Path) {s : String} (ht : Token.tokens s.toList = []) :
    setting.fillString path s = .done (.string s) := by
  unfold fillString
  dsimp only
  rw [ht]
  rfl

/-- **A document without tokens is filled in with nothing**, whatever plugins there are: none of them is asked, so
    it does not matter that there may be none at all. -/
theorem fill_of_no_tokens (path : Path) {value : Json}
    (ht : value.AllStrings fun s => Token.tokens s.toList = []) (world : World σ) :
    (setting.fill path value world).1 = .ok value := by
  let silent : Setting σ := { setting with registry := {} }
  have hsteady : silent.registry.Steady := by
    intro plugin hplugin
    exact absurd hplugin List.not_mem_nil
  have hself : (silent.fill path value world).1 = .ok value := by
    rw [fill_eq_ok_iff hsteady, Json.fillWith_eq_self_iff]
    exact ht.mono fun s hs => rests_of_no_tokens hsteady hs
  have hconcurrent : setting.options.concurrent = silent.options.concurrent := rfl
  have hcut : ∀ leaf ∈ value.leaves path,
      (silent.fillString leaf.1 leaf.2).Cut (fun _ => False) (setting.fillString leaf.1 leaf.2) := by
    intro leaf hleaf
    have hnone := (Json.allStrings_iff path value).mp ht leaf hleaf
    rw [fillString_of_no_tokens leaf.1 hnone, fillString_of_no_tokens leaf.1 hnone]
    exact .done _
  rw [(fill_cut hconcurrent hcut hself).1, hself]

end Setting

namespace Engine

open Setting

variable {engine : Engine σ}

/-! ## Output -/

/-- **Output reads back as what was filled in.** What is read from the output for a document is the value that was
    filled in. A document without tokens has a result, which reads back as the document itself. The text of an
    array or an object inside running text reads back as well. -/
theorem generate_reads_back (hp : engine.registry.Proper) :
    (∀ options content world output, options.format = .json →
      (engine.generate options content world).1 = .ok output →
      ∃ value filled, Json.read content = .ok value ∧
        ((engine.setting options).fill [] value world).1 = .ok filled ∧ Json.read output = .ok filled) ∧
    (∀ options content value world, options.format = .json → Json.read content = .ok value →
      (value.AllStrings fun s => Token.tokens s.toList = []) →
      ∃ output, (engine.generate options content world).1 = .ok output ∧ Json.read output = .ok value) ∧
    ∀ value : Json, value.Distinct → value.kind = .array ∨ value.kind = .object →
      Json.read value.asText = .ok value := by
  refine ⟨?_, ?_, ?_⟩
  · intro options content world output hf houtput
    obtain ⟨value, filled, hread, hfilled, rfl⟩ := (generate_ok_iff hf).mp houtput
    have hproper : (engine.setting options).registry.Proper := hp
    have hdistinct : filled.Distinct := fill_gives hproper (Json.distinct_of_read hread) hfilled
    exact ⟨value, filled, hread, hfilled, Json.read_print _ hdistinct⟩
  · intro options content value world hf hread ht
    have hself : ((engine.setting options).fill [] value world).1 = .ok value := fill_of_no_tokens [] ht world
    exact ⟨_, (generate_ok_iff hf).mpr ⟨value, value, hread, hself, rfl⟩,
      Json.read_print _ (Json.distinct_of_read hread)⟩
  · intro value hdistinct hkind
    have htext : value.asText = value.print .compact := by
      cases value with
      | array items => rfl
      | object members => rfl
      | _ => rcases hkind with hkind | hkind <;> cases hkind
    rw [htext]
    exact Json.read_print .compact hdistinct

end Engine

/-! ## A value that needs escapes -/

/-- An object with a count, and a string that needs escapes. -/
def Json.record (asked : Nat) : Json :=
  .object [("asked", .number (.integer asked)), ("said", .string "\"\n")]

/-- The plugin that answers with the number of questions it was asked before, in a record. -/
def Plugin.record : Plugin Nat where
  name := "record"
  resolve _ _ asked := ({ answer := .ok (.value (.record asked)) }, asked + 1)

/-- An engine that records. -/
def Engine.recording : Engine Nat where
  registry := { plugins := [.record] }

namespace Engine

open Setting

theorem proper_recording : recording.registry.Proper := by
  constructor
  · intro plugin h
    rw [List.mem_singleton.mp h]
    rintro placeholder context state value ⟨⟩
    have hnames : ["asked", "said"].Nodup := by decide
    exact ⟨hnames, trivial, trivial, trivial⟩
  · intro transform h
    exact absurd h List.not_mem_nil

/-- The fourth record is put in for a string, and reads back. -/
theorem generate_reads_back_record :
    recording.registry.Proper ∧
    ∃ output, (recording.generate {} "\"\x7b\x7brecord:a\x7d\x7d\"".toList { state := 3 }).1 = .ok output ∧
      Json.read output = .ok (.record 3) := by
  have hread : Json.read "\"\x7b\x7brecord:a\x7d\x7d\"".toList = .ok (.string "\x7b\x7brecord:a\x7d\x7d") := by
    have hdistinct : (Json.string "\x7b\x7brecord:a\x7d\x7d").Distinct := trivial
    exact Json.read_print (.indented 2) hdistinct
  have hstring : (recording.setting {}).fillString [] "\x7b\x7brecord:a\x7d\x7d" = _ :=
    fillString_of_bracket _ _ "record:a".toList rfl (by decide) (by decide) (by decide)
  have hfill : ((recording.setting {}).fill [] (.string "\x7b\x7brecord:a\x7d\x7d") { state := 3 }).1 =
      .ok (.record 3) := by
    show (((recording.setting {}).fillString [] "\x7b\x7brecord:a\x7d\x7d").run { state := 3 }).1 = _
    rw [hstring]
    rfl
  have hrun : (recording.generate {} "\"\x7b\x7brecord:a\x7d\x7d\"".toList { state := 3 }).1 =
      .ok ((Json.record 3).print (.indented 2)) := (generate_ok_iff rfl).mpr ⟨_, _, hread, hfill, rfl⟩
  obtain ⟨value, filled, hread', hfill', hback⟩ := (generate_reads_back proper_recording).1 {} _ _ _ rfl hrun
  cases hread.symm.trans hread'
  cases hfill.symm.trans hfill'
  exact ⟨proper_recording, _, hrun, hback⟩

end Engine

end Template

import ThriftIdl.Proofs.Rule.Strictness

/-!
# Rules that reject what they are given

A rejection is the reason for which a whole declaration is not read, unless something else is
rejected on the way to it or after it. `Rejects` says of a rule and a view that the rule misses
there and that everything it rejects is of one kind. A sequence rejects what its last part rejects
(`Rejects.after`), and a choice what the alternatives reject that may begin there
(`Rejects.choice_of_keys`).
-/

namespace ThriftIdl.Parser

variable {Value First Second : Type} {kind : Rejection → Prop} {view middle : View}

private theorem Faulted.records {before after : State} (faulted : Faulted kind before after) :
    Records kind before after := by
  obtain ⟨added, misses, each, -⟩ := faulted
  exact ⟨added, misses, each⟩

/-- From every state with a view a rule misses, after it has rejected something of one kind and
nothing else. -/
def Rejects (kind : Rejection → Prop) (rule : Rule Value) (view : View) : Prop :=
  ∀ before : State, before.Sound → before.view = view →
    ∃ miss after, rule before = .error miss after ∧ Faulted kind before after

namespace Rejects

/-- A rule that only rejects does so. -/
theorem rejected {why : Rejection} (holds : kind why) :
    Rejects kind (rejected why : Rule Value) view := by
  intro before sound same
  refine ⟨_, _, rfl, [before.missFor (.rejected why)], rfl, ?_, _, List.mem_singleton_self _, rfl⟩
  intro miss member reason rejects
  obtain rfl := List.mem_singleton.mp member
  obtain rfl : why = reason := Reason.rejected.inj rejects
  exact holds

/-- A rule that looks at the text rejects what the rule for that text rejects. -/
theorem look (rule : List Char → Rule Value) (rejects : Rejects kind (rule view.rest) view) :
    Rejects kind (look rule) view := by
  intro before sound same
  have rest : before.input.rest = view.rest := congrArg View.rest same
  have looked : Parser.look rule before = rule view.rest before := by rw [← rest]; rfl
  rw [looked]
  exact rejects before sound same

/-- A sequence whose first part is rejected. -/
theorem bind {rule : Rule First} (next : First → Rule Second) (rejects : Rejects kind rule view) :
    Rejects kind (rule >>= next) view := by
  intro before sound same
  obtain ⟨miss, after, missed, faulted⟩ := rejects before sound same
  exact ⟨miss, after, by rw [run_bind, missed], faulted⟩

/-- A sequence whose first part rejects nothing when it matches, and does match. -/
theorem afterCandid {rule : Rule First} {next : First → Rule Second} {value : First}
    {given : List Char → Prop} (candid : Candid rule Nowhere given)
    (read : reads rule view = some (value, middle)) (rejects : Rejects kind (next value) middle) :
    Rejects kind (rule >>= next) view := by
  intro before sound same
  obtain ⟨between, matched, sameBetween, soundBetween⟩ :=
    candid.formed.ok_of_reads sound (same ▸ read)
  have clean : Clean before between := (candid.ok sound matched).resolve_right id
  obtain ⟨miss, last, missed, faulted⟩ := rejects between soundBetween sameBetween
  refine ⟨miss, last, ?_, .after_records clean.records faulted⟩
  rw [run_bind, matched]
  exact missed

/-- A sequence whose first part is read without a rejection. -/
theorem after {rule : Rule First} {next : First → Rule Second} {value : First} (quiet : Quiet rule)
    (read : reads rule view = some (value, middle)) (rejects : Rejects kind (next value) middle) :
    Rejects kind (rule >>= next) view :=
  afterCandid (quiet.candid : Candid rule Nowhere Nowhere) read rejects

/-- A sequence that begins with a look at the text. -/
theorem startsWith {word : List Char} {next : Bool → Rule Value}
    (rejects : Rejects kind (next (word.isPrefixOf view.rest)) view) :
    Rejects kind (Parser.startsWith word >>= next) view :=
  after (Quiet.startsWith word) rfl rejects

/-- A choice among alternatives that either reject something or cannot begin with the text: what it
rejects is of one kind, and there is something of it if an alternative can begin so. -/
theorem records_of_keys {Entry Key : Type} (keyOf : List Char → Key) (key : Entry → Key)
    (rule : Entry → Rule Value) (what : Expectation) {table : List Entry}
    (candid : ∀ entry ∈ table, Candid (rule entry) Nowhere (keyOf · = key entry))
    (missed : ∀ entry ∈ table, ∀ {before : View}, keyOf before.rest ≠ key entry →
      reads (rule entry) before = none)
    (rejects : ∀ entry ∈ table, keyOf view.rest = key entry → Rejects kind (rule entry) view)
    {before : State} (sound : before.Sound) (same : before.view = view) :
    ∃ miss after, choice what (table.map rule) before = .error miss after ∧
      Records kind before after ∧
      ((∃ entry ∈ table, keyOf view.rest = key entry) → Faulted kind before after) := by
  induction table generalizing before with
  | nil =>
      have clean : Clean before (ending (expected what before : EStateM.Result _ _ Value)) :=
        clean_expected what before
      rw [List.map_nil, choice_nil_eq]
      refine ⟨_, _, rfl, clean.records, ?_⟩
      rintro ⟨entry, member, -⟩
      cases member
  | cons entry others ih =>
      obtain ⟨candidFirst, candidLater⟩ := List.forall_mem_cons.mp candid
      obtain ⟨missedFirst, missedLater⟩ := List.forall_mem_cons.mp missed
      obtain ⟨rejectsFirst, rejectsLater⟩ := List.forall_mem_cons.mp rejects
      have growing : ∀ other ∈ others.map rule, Growing other :=
        List.forall_mem_map.mpr fun other member => (candidLater other member).formed.growing
      rw [List.map_cons, choice_cons_eq what candidFirst.formed.growing growing]
      by_cases begins : keyOf view.rest = key entry
      -- This alternative rejects something, and what the others record comes after that.
      · obtain ⟨_, failed, result, faulted⟩ :=
          rejectsFirst begins before.checkpoint sound.checkpoint same
        have faulted : Faulted kind before (before.keeping failed.misses) := faulted
        obtain ⟨miss, after, ended, records, -⟩ :=
          ih candidLater missedLater rejectsLater (sound.keeping failed.misses) same
        have whole := faulted.then_records records
        simp only [result]
        exact ⟨miss, after, ended, whole.records, fun _ => whole⟩
      -- This alternative only misses, so the rejection has to come from another one.
      · have none : reads (rule entry) before.view = none := missedFirst (same ▸ begins)
        cases result : rule entry before.checkpoint with
        | ok value read =>
            have here := (candidFirst.formed.reads_of_ok sound.checkpoint result).1
            cases none.symm.trans here
        | error _ failed =>
            have shown := candidFirst.error sound.checkpoint result
            have clean : Clean before (before.keeping failed.misses) :=
              shown.resolve_right fun here => begins (same ▸ here)
            obtain ⟨miss, after, ended, records, faulted⟩ :=
              ih candidLater missedLater rejectsLater (sound.keeping failed.misses) same
            refine ⟨miss, after, ended, clean.records.trans records, ?_⟩
            rintro ⟨other, member, here⟩
            rcases List.mem_cons.mp member with rfl | member
            · exact absurd here begins
            · exact .after_records clean.records (faulted ⟨other, member, here⟩)

/-- **Tables of alternatives.** A choice rejects what the alternatives reject that can begin with
the text, as far as a key tells that is made of it. -/
theorem choice_of_keys {Entry Key : Type} (keyOf : List Char → Key) (key : Entry → Key)
    (rule : Entry → Rule Value) (what : Expectation) {table : List Entry}
    (candid : ∀ entry ∈ table, Candid (rule entry) Nowhere (keyOf · = key entry))
    (missed : ∀ entry ∈ table, ∀ {before : View}, keyOf before.rest ≠ key entry →
      reads (rule entry) before = none)
    (rejects : ∀ entry ∈ table, keyOf view.rest = key entry → Rejects kind (rule entry) view)
    (present : ∃ entry ∈ table, keyOf view.rest = key entry) :
    Rejects kind (choice what (table.map rule)) view := by
  intro before sound same
  obtain ⟨miss, after, ended, -, faulted⟩ :=
    records_of_keys keyOf key rule what candid missed rejects sound same
  exact ⟨miss, after, ended, faulted present⟩

end Rejects

end ThriftIdl.Parser

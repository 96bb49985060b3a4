import ThriftIdl.Proofs.Document.Keeping
import ThriftIdl.Proofs.Reading.DottedNames
import ThriftIdl.Proofs.Reading.Rejection
import ThriftIdl.Proofs.Rule.Refusal

/-!
# Constants and their values

Where a reading comes to a declaration that is a constant up to its value, what follows depends on
the value alone: the declaration is read exactly if a literal is read there, it has this literal as
its value (`ConstantAt.readsConstant_iff`), and if no literal is read there, the text has no
document (`ConstantAt.exists_error`). What a literal is rejected for is then what the error says
(`ConstantAt.exists_error_of_rejects`).
-/

namespace ThriftIdl

open ThriftIdl.Grammar (leadingWord)

namespace Parser

variable {options : Options} {source : String} {state : State}
  {start : Option String × TypeRef × String} {view : View}

/-! ## From the keyword to the value -/

/-- A constant begins with its keyword. -/
theorem leadingWord_of_constantStart {before : View}
    (begins : reads constantStart before = some (start, view)) :
    leadingWord before.rest = "const".toList := by
  have later (head : Option String) : Formed (keyword "const" >>= fun _ => typeRef >>= fun type =>
      name >>= fun name => mark '=' >>= fun _ => pure (head, type, name)) :=
    (Formed.keyword _).bind fun _ => Formed.typeRef.bind fun _ => Formed.name.bind fun _ =>
      (Formed.mark _).bind fun _ => .pure _
  rw [constantStart, reads_bind_of .drainHead later (reads_drainHead before)] at begins
  obtain ⟨_, _, word, -⟩ := (reads_bind_eq_some_iff _ (.keyword "const") fun _ =>
    Formed.typeRef.bind fun _ => Formed.name.bind fun _ => (Formed.mark _).bind fun _ =>
    .pure _).mp begins
  have isWord : Grammar.IsIdentifier "const".toList := by decide
  exact (Grammar.keyword_iff.mp ((Grammar.agrees_keyword isWord).always.mp word)).1

private theorem quiet_constantStart : Quiet constantStart :=
  Quiet.drainHead.bind fun _ => (Grammar.quiet_keyword _).bind fun _ =>
    Grammar.quiet_typeRef.bind fun _ => Grammar.quiet_name.bind fun _ =>
    (Grammar.quiet_mark _).bind fun _ => .pure _

/-- What begins as a constant is read as one. -/
theorem reads_declaration_of_constantStart (duplicates : DuplicateIds) {before : View}
    (begins : reads constantStart before = some (start, view)) :
    reads (declaration duplicates) before = reads (constantEnd start) view := by
  have form : reads (formOfKind duplicates .constant) before = reads (constantEnd start) view := by
    rw [formOfKind, constantForm_eq, reads_bind_of .constantStart .constantEnd begins]
  exact (reads_declaration_of_leadingWord duplicates .constant
    (leadingWord_of_constantStart begins)).trans form

/-- The value of a constant that is read is read. -/
theorem exists_reads_literal {declared : Declaration} {after : View}
    (read : reads (constantEnd start) view = some (declared, after)) :
    ∃ value behind tail, reads literal view = some (value, behind) ∧ declared = .constant
      { type := start.2.1, name := start.2.2, value, comments := { head := start.1, tail } } := by
  obtain ⟨value, behind, first, ended⟩ := (reads_bind_eq_some_iff view .literal fun _ =>
    Formed.ending _).mp read
  obtain ⟨_, middle, -, drained⟩ := (reads_bind_eq_some_iff behind .separator fun _ =>
    Formed.drainTail.bind fun _ => .pure _).mp ended
  rw [reads_bind_of .drainTail (fun _ => .pure _) (reads_drainTail middle), reads_pure] at drained
  cases drained
  exact ⟨value, behind, _, first, rfl⟩

/-! ## Constants where a reading comes to them -/

/-- A reading comes to a declaration that begins as a constant does, and the value of the constant
begins in a view. -/
structure ConstantAt (options : Options) (source : String) (state : State)
    (start : Option String × TypeRef × String) (view : View) : Prop where
  reached : TopLevel options source state
  begins : reads constantStart state.view = some (start, view)

/-- A constant is read with a value, and the reading goes on behind it. If nothing more comes there,
the text has a document, and in it the constant has this value. -/
def ReadsConstant (options : Options) (source : String) (state : State)
    (start : Option String × TypeRef × String) (value : Literal) : Prop :=
  ∃ comments after, declaration options.duplicates (state.keeping []) =
      .ok (.constant { type := start.2.1, name := start.2.2, value, comments }) after ∧
    TopLevel options source after ∧
    (after.input.atEnd = true → ∃ document, Document.parse source options = .ok document ∧
      document.constant? start.2.2 =
        some { type := start.2.1, name := start.2.2, value, comments })

/-- In a document the last declaration of a kind and a name is the one. -/
theorem constant?_ofList (earlier : List Declaration) (last : Constant) :
    (Document.ofList (earlier ++ [.constant last])).constant? last.name = some last := by
  have found : (Document.ofList (earlier ++ [.constant last])).find? .constant last.name =
      some (.constant last) := Document.find?_ofList_append_cons earlier (by simp)
  rw [Document.constant?, found]

/-- Where a reading ends behind a constant, its text has a document with this constant. -/
theorem exists_document_of_constant {after : State} {last : Constant}
    (reached : TopLevel options source state)
    (matched : declaration options.duplicates (state.keeping []) = .ok (.constant last) after)
    (ended : after.input.atEnd = true) :
    ∃ document, Document.parse source options = .ok document ∧
      document.constant? last.name = some last := by
  obtain ⟨here, -, -⟩ := declaration_of_ok reached.sound matched
  obtain ⟨earlier, -, parsed⟩ :=
    reached.exists_parse_eq_ok (.next here (.done _)) ((atEnd_iff after).mp ended)
  exact ⟨_, parsed, constant?_ofList _ last⟩

namespace ConstantAt

private theorem unread (here : ConstantAt options source state start view) :
    state.input.atEnd = false :=
  unread_of_leadingWord .constant (leadingWord_of_constantStart here.begins)

/-- **A constant has the value that is read for it.** -/
theorem readsConstant_iff (here : ConstantAt options source state start view) {value : Literal} :
    ReadsConstant options source state start value ↔
      ∃ behind, reads literal view = some (value, behind) := by
  have formed := Formed.declaration options.duplicates
  have sound := here.reached.sound.keeping []
  have whole : reads (declaration options.duplicates) (state.keeping []).view =
      reads (constantEnd start) view :=
    reads_declaration_of_constantStart options.duplicates here.begins
  constructor
  · rintro ⟨comments, after, matched, -⟩
    have read := (formed.reads_of_ok sound matched).1
    rw [whole] at read
    obtain ⟨found, behind, tail, first, same⟩ := exists_reads_literal read
    cases same
    exact ⟨behind, first⟩
  · rintro ⟨behind, first⟩
    obtain ⟨comments, last, read⟩ := exists_reads_constantEnd first start
    obtain ⟨after, matched, -, -⟩ := formed.ok_of_reads sound (whole.trans read)
    exact ⟨comments, after, matched, .next here.reached here.unread matched,
      exists_document_of_constant here.reached matched⟩

/-- Where no value is read, the text has no document. -/
theorem exists_error (here : ConstantAt options source state start view)
    (missed : reads literal view = none) :
    ∃ error, Document.parse source options = .error error := by
  cases result : declaration options.duplicates (state.keeping []) with
  | error miss failed => exact ⟨_, here.reached.parse_eq_error here.unread result⟩
  | ok declared after =>
      have read := ((Formed.declaration options.duplicates).reads_of_ok
        (here.reached.sound.keeping []) result).1
      rw [State.view_keeping, reads_declaration_of_constantStart _ here.begins] at read
      obtain ⟨value, behind, tail, first, -⟩ := exists_reads_literal read
      cases missed.symm.trans first

/-- A value that is rejected is what the declaration is rejected for. -/
theorem rejects_declaration {kind : Rejection → Prop}
    (here : ConstantAt options source state start view) (rejects : Rejects kind literal view) :
    Rejects kind (declaration options.duplicates) state.view := by
  refine Rejects.declaration _ .constant (leadingWord_of_constantStart here.begins) ?_
  rw [formOfKind, constantForm_eq]
  exact Rejects.after quiet_constantStart here.begins (rejects.bind _)

/-- **The error says why a value was rejected**, if it was for one reason only. -/
theorem exists_error_of_rejects {why : Rejection}
    (here : ConstantAt options source state start view)
    (rejects : Rejects (· = why) literal view) :
    ∃ error, Document.parse source options = .error error ∧ error.message = why.text :=
  here.reached.exists_error_of_rejects here.unread (here.rejects_declaration rejects)

end ConstantAt

end Parser
end ThriftIdl

import ThriftIdl.Proofs.Document
import ThriftIdl.Proofs.Layout.Declaration
import ThriftIdl.Proofs.Reading.Sequence

/-!
# Documents are read back from their layouts

Whatever the layout of a well-formed document is, it is read, and what is read is the document up to
comments: `Parser.parse_layout`.
-/

namespace ThriftIdl

open ThriftIdl.Source (Stops)
open ThriftIdl.Parser (isSeparator View withoutMark)
open ThriftIdl.Grammar (Phrase)

namespace Layout

variable {duplicates : DuplicateIds}

/-! ## Documents up to comments -/

/-- Comments have no part in the keys of declarations. -/
theorem key_map_bare (declared : List Declaration) :
    (declared.map Declaration.bare).map Declaration.key = declared.map Declaration.key := by
  rw [List.map_map]
  exact List.map_congr_left fun declaration _ => declaration.key_bare

private theorem filter_map_bare (declared : List Declaration) (kind : Kind) :
    (declared.map Declaration.bare).filter (fun declaration => declaration.kind = kind) =
      (declared.filter fun declaration => declaration.kind = kind).map Declaration.bare := by
  rw [List.filter_map]
  congr 2
  funext declaration
  cases declaration <;> rfl

/-- Declarations that are those of a document up to comments make that document up to comments. -/
theorem toList_ofList_bare {document : Document} {declared found : List Declaration}
    (arranged : ∀ kind, declared.filter (fun declaration => declaration.kind = kind) =
      document.ofKind kind)
    (same : found.map Declaration.bare = declared.map Declaration.bare) :
    (Document.ofList found).toList.map Declaration.bare =
      document.toList.map Declaration.bare := by
  have alike (kind : Kind) : (found.filter fun declaration => declaration.kind = kind).map
      Declaration.bare = (document.ofKind kind).map Declaration.bare := by
    rw [← filter_map_bare, same, filter_map_bare, arranged]
  have ofKind (kind : Kind) : (Document.ofList found).ofKind kind =
      found.filter fun declaration => declaration.kind = kind := by
    have distinct := document.nodup_ofKind kind
    rw [← key_map_bare, ← alike, key_map_bare] at distinct
    exact Document.ofKind_ofList distinct
  simp only [Document.toList, List.map_flatMap, ofKind, alike]

/-- The declarations of a document make that document. -/
theorem toList_ofList {document : Document} {declared : List Declaration}
    (arranged : ∀ kind, declared.filter (fun declaration => declaration.kind = kind) =
      document.ofKind kind) : (Document.ofList declared).toList = document.toList := by
  have ofKind (kind : Kind) : (Document.ofList declared).ofKind kind = document.ofKind kind := by
    have distinct := document.nodup_ofKind kind
    rw [← arranged] at distinct ⊢
    exact Document.ofKind_ofList distinct
  exact congrArg Kind.all.flatMap (funext ofKind)

/-- The declarations of a well-formed document are well formed in whatever order they come. -/
theorem IsWellFormedDocument.of_arranged {document : Document} {declared : List Declaration}
    (wellFormed : IsWellFormedDocument document)
    (arranged : ∀ kind, declared.filter (fun declaration => declaration.kind = kind) =
      document.ofKind kind) : ∀ declaration ∈ declared, IsWellFormed declaration := by
  intro declaration member
  have kept : declaration ∈ document.ofKind declaration.kind := by
    rw [← arranged]
    exact List.mem_filter.mpr ⟨member, by simp⟩
  exact wellFormed declaration (List.mem_flatMap.mpr ⟨_, Kind.mem_all _, kept⟩)

/-! ## Texts -/

/-- A text of declarations begins with no byte order mark. -/
theorem head?_ne_mark_of_repeated {text : List Char} {found : List Declaration} {last : View}
    (repeated : Phrase.Repeated (Grammar.declaration duplicates) (View.ofText text) found last)
    (ended : last.rest = []) : text.head? ≠ some '\ufeff' := by
  intro mark
  cases repeated with
  | done =>
      obtain rfl : text = [] := ended
      cases mark
  | next here _ =>
      have begins := Grammar.starts_declaration _ here
      rw [show (View.ofText text).rest = text from rfl, mark] at begins
      cases begins

/-- Where declarations are laid out, the first of them begins with no byte order mark. -/
theorem head?_ne_mark_of_laid {tokens : List Token} {good : List Declaration → Prop}
    (yields : Yields (Phrase.Repeated (Grammar.declaration duplicates)) good unknown Plain tokens)
    {text : List Char} (laid : Laid tokens text) : text.head? ≠ some '\ufeff' := by
  have laid : Laid (tokens ++ []) (View.ofText text).rest :=
    (List.append_nil tokens).symm ▸ laid
  obtain ⟨found, after, repeated, -, later, -⟩ :=
    yields.found (by simp [AreTokens]) plain_nil laid
  exact head?_ne_mark_of_repeated repeated later.text_eq_nil

/-- No gap begins with a byte order mark. -/
theorem head?_gap_ne_mark {last : Prop} {gap rest : List Char} (isGap : IsGap last gap)
    (unmarked : rest.head? ≠ some '\ufeff') : (gap ++ rest).head? ≠ some '\ufeff' := by
  cases isGap with
  | nil => exact unmarked
  | blank blank _ =>
      intro mark
      cases mark
      rcases blank with blank | blank <;> cases blank
  | block => simp
  | line isMark =>
      rcases isMark with rfl | rfl <;> simp

/-- The reading of a layout begins at its first token. -/
theorem laid_opening {tokens : List Token} {text : List Char} (layout : IsLayout tokens text)
    (areTokens : AreTokens tokens)
    (unmarked : ∀ text, Laid tokens text → text.head? ≠ some '\ufeff') :
    Laid tokens (View.opening (withoutMark text)).rest := by
  obtain ⟨mark, gap, rest, isMark, whole, isGap, laid⟩ := layout
  have within : withoutMark text = gap ++ rest := by
    rw [whole, withoutMark]
    rcases isMark with rfl | rfl
    · exact if_neg (head?_gap_ne_mark isGap (unmarked rest laid))
    · rfl
  have passed := gapChars_of_isGap isGap (laid.stops areTokens) fun none => by
    subst none
    exact laid.text_eq_nil
  rwa [within, View.opening_eq, passed, List.drop_left]

end Layout

namespace Parser

open ThriftIdl.Layout

/-- **Documents are read back from their layouts.** Whatever choice of tokens is written for a
well-formed document, and whatever gaps are put between them, the text is read, and what is read is
the document up to comments. -/
theorem parse_layout {document : Document} (wellFormed : IsWellFormedDocument document)
    {tokens : List Token} (writes : WritesDocument document tokens) {text : String}
    (laid : IsLayout tokens text.toList) (options : Options) :
    ∃ parsed, Document.parse text options = .ok parsed ∧
      parsed.toList.map Declaration.bare = document.toList.map Declaration.bare := by
  obtain ⟨declared, arranged, writes⟩ := writes
  have wellFormed := wellFormed.of_arranged arranged
  have yields := yields_declarations options.duplicates wellFormed writes
  have opened : Laid (tokens ++ []) (View.opening (withoutMark text.toList)).rest := by
    rw [List.append_nil]
    exact laid_opening laid yields.areTokens fun _ => head?_ne_mark_of_laid yields
  obtain ⟨found, last, repeated, same, ended, -⟩ :=
    yields.found (by simp [AreTokens]) plain_nil opened
  exact ⟨.ofList found, parse_eq_ok_iff.mpr ⟨found, last, repeated, ended.text_eq_nil, rfl⟩,
    toList_ofList_bare arranged same⟩

/-- A constant with a comment behind it is read back. -/
theorem parse_layout_constant :
    ∃ parsed, Document.parse "const list<i32>n=[1;a.b]# end" {} = .ok parsed ∧
      parsed.toList.map Declaration.bare =
        [.constant ⟨.list (.scalar "i32"), "n", .list [.int 1, .ref ["a", "b"]], {}⟩] := by
  have wellFormed : IsWellFormedDocument
      (.ofList [.constant ⟨.list (.scalar "i32"), "n", .list [.int 1, .ref ["a", "b"]], {}⟩]) := by
    intro declared member
    obtain rfl := List.mem_singleton.mp member
    have paths : ArePath ["a", "b"] := ⟨by simp, by decide⟩
    exact ⟨⟨rfl, rfl⟩, ⟨rfl, rfl⟩, trivial, ⟨paths, by decide, by decide⟩, trivial⟩
  have writes : WritesDocument
      (.ofList [.constant ⟨.list (.scalar "i32"), "n", .list [.int 1, .ref ["a", "b"]], {}⟩])
      (["const", "list", "<", "i32", ">", "n", "=", "[", "1", ";", "a.b", "]"].map
        String.toList) := by
    have one : WritesInteger 1 ['1'] := ⟨[], [], .inl (.inr ⟨rfl, by decide⟩), by simp, rfl⟩
    have item : WritesItems [.int 1, .ref ["a", "b"]] [['1'], [';'], "a.b".toList] :=
      ⟨[['1']], [[';']], [_], ⟨_, one, rfl⟩, .inr (.inr rfl),
        ⟨[_], [], [], rfl, .inl rfl, rfl, rfl⟩, rfl⟩
    have type : WritesType (.list (.scalar "i32")) (["list", "<", "i32", ">"].map String.toList) :=
      ⟨[_], rfl, rfl⟩
    exact ⟨_, fun _ => rfl, _, [], ⟨_, [], ⟨_, _, type, ⟨_, item, rfl⟩, rfl⟩, .inl rfl, rfl⟩, rfl,
      rfl⟩
  have laid : IsLayout
      (["const", "list", "<", "i32", ">", "n", "=", "[", "1", ";", "a.b", "]"].map String.toList)
      "const list<i32>n=[1;a.b]# end".toList := by
    have comment : IsGap (([] : List Token) = []) (['#'] ++ [' ', 'e', 'n', 'd'] ++ []) :=
      .line (.inr rfl) (by simp [Source.isLineBreak]) rfl (fun _ => rfl) .nil
    have apart : ¬GrowsInto "]".toList ((['#'] ++ [' ', 'e', 'n', 'd'] ++ []) ++ []) := by
      decide +kernel
    have text : "const list<i32>n=[1;a.b]# end".toList = "const".toList ++ ([' '] ++
        ("list".toList ++ ("<".toList ++ ("i32".toList ++ (">".toList ++ ("n".toList ++
        ("=".toList ++ ("[".toList ++ ("1".toList ++ (";".toList ++ ("a.b".toList ++ ("]".toList ++
        ((['#'] ++ [' ', 'e', 'n', 'd'] ++ []) ++ []))))))))))))) := by decide +kernel
    refine ⟨[], [], _, .inl rfl, text, .nil, .cons (.blank (.inl rfl) .nil) (by decide +kernel) ?_⟩
    iterate 10 refine .tight (by decide +kernel) ?_
    exact .cons comment apart .nil
  exact parse_layout wellFormed writes laid {}

end Parser
end ThriftIdl

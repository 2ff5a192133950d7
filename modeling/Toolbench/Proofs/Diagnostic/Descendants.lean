import Toolbench.Proofs.Diagnostic.PrimaryPlace
import Toolbench.Proofs.Text.Pieces
import Toolbench.Proofs.Text.Runs

/-!
# The children of a compiler message

The message of a diagnostic has one line more for each descendant of the compiler message. Which
descendant that is can be said by its address, which leads to it from child to child: the lines
stand in the order of the addresses, where an address comes before those that go on from it and
these before those that turn off later. `message_of_descendants` says what each line holds, and that
the lines can be told apart and counted when what they hold has no line feed.
-/

namespace Toolbench.CompilerMessage

variable {message child : CompilerMessage} {children : List CompilerMessage} {address : List Nat}

/-! ## Descendants and their addresses -/

/-- The message at an address below a message: the address names one child after the other. -/
def at? : CompilerMessage → List Nat → Option CompilerMessage
  | message, [] => some message
  | message, index :: address => (message.children[index]?).bind (·.at? address)

mutual
/-- A message and its descendants with their addresses. -/
def listed : CompilerMessage → List (List Nat × CompilerMessage)
  | ⟨message, code, level, spans, children, rendered⟩ =>
      ([], ⟨message, code, level, spans, children, rendered⟩) :: listedAll 0 children

/-- Children from one index on, and their descendants, with their addresses. -/
def listedAll (index : Nat) : List CompilerMessage → List (List Nat × CompilerMessage)
  | [] => []
  | child :: children =>
      (listed child).map (fun (address, below) => (index :: address, below))
        ++ listedAll (index + 1) children
end

/-- The descendants of a message with their addresses. -/
def descendants (message : CompilerMessage) : List (List Nat × CompilerMessage) :=
  listedAll 0 message.children

mutual
/-- What is listed are the messages at their addresses. -/
theorem mem_listed_iff (message : CompilerMessage) (address : List Nat) (below : CompilerMessage) :
    (address, below) ∈ message.listed ↔ message.at? address = some below := by
  match message with
  | ⟨text, code, level, spans, children, rendered⟩ =>
      rw [listed, List.mem_cons, mem_listedAll_iff 0 children address below]
      cases address with
      | nil => simp [at?, eq_comm]
      | cons index address => simp [at?]

/-- What is listed of children are the messages below the child that the address begins with. -/
theorem mem_listedAll_iff (index : Nat) (children : List CompilerMessage) (address : List Nat)
    (below : CompilerMessage) :
    (address, below) ∈ listedAll index children ↔ ∃ place rest, address = (index + place) :: rest ∧
      (children[place]?).bind (·.at? rest) = some below := by
  match children with
  | [] => simp [listedAll]
  | child :: children =>
      rw [listedAll, List.mem_append, mem_listedAll_iff (index + 1) children address below,
        List.mem_map]
      constructor
      · rintro (⟨⟨rest, found⟩, hmem, heq⟩ | ⟨place, rest, rfl, hfound⟩)
        · obtain ⟨rfl, rfl⟩ := Prod.mk.inj heq
          exact ⟨0, rest, rfl, (mem_listed_iff child rest found).1 hmem⟩
        · exact ⟨place + 1, rest, by rw [Nat.add_right_comm, Nat.add_assoc], hfound⟩
      · rintro ⟨place, rest, rfl, hfound⟩
        cases place with
        | zero => exact .inl ⟨(rest, below), (mem_listed_iff child rest below).2 hfound, rfl⟩
        | succ place =>
            exact .inr ⟨place, rest, by rw [Nat.add_right_comm, Nat.add_assoc], hfound⟩
end

mutual
/-- Messages are listed in the order of their addresses. -/
theorem pairwise_listed (message : CompilerMessage) :
    message.listed.Pairwise fun earlier later => earlier.1 < later.1 := by
  match message with
  | ⟨text, code, level, spans, children, rendered⟩ =>
      refine List.pairwise_cons.2 ⟨fun later hlater => ?_, pairwise_listedAll 0 children⟩
      obtain ⟨place, rest, heq, -⟩ := (mem_listedAll_iff 0 children _ _).1 hlater
      rw [heq]
      exact List.nil_lt_cons _ _

/-- Children are listed one after the other, each with its descendants. -/
theorem pairwise_listedAll (index : Nat) (children : List CompilerMessage) :
    (listedAll index children).Pairwise fun earlier later => earlier.1 < later.1 := by
  match children with
  | [] => exact .nil
  | child :: children =>
      refine List.pairwise_append.2 ⟨?_, pairwise_listedAll (index + 1) children, ?_⟩
      · refine (pairwise_listed child).map _ fun earlier later hlt => ?_
        exact List.cons_lt_cons_iff.2 (.inr ⟨rfl, hlt⟩)
      · intro earlier hearlier later hlater
        obtain ⟨_, _, rfl⟩ := List.mem_map.1 hearlier
        obtain ⟨place, rest, heq, -⟩ := (mem_listedAll_iff (index + 1) children _ _).1 hlater
        rw [heq]
        exact List.cons_lt_cons_iff.2 (.inl (by omega))
end

/-- The descendants are the messages at addresses that lead anywhere. -/
theorem mem_descendants_iff :
    (address, child) ∈ message.descendants ↔ address ≠ [] ∧ message.at? address = some child := by
  rw [descendants, mem_listedAll_iff]
  cases address with
  | nil => simp
  | cons index address => simp [at?]

/-! ## Lines -/

/-- What a line tells of a descendant: how deep it stands, its level and message, and where its
spans begin. -/
structure Outline where
  depth : Nat
  level : String
  message : String
  places : List (String × UInt32)
deriving DecidableEq, Repr

/-- Where spans begin, in brackets; nothing when there are none. -/
def placesText (places : List (String × UInt32)) : String :=
  if places.isEmpty then ""
  else " [" ++ ", ".intercalate (places.map fun (file, line) =>
    file ++ "(" ++ Text.Decimal.wordText line ++ ")") ++ "]"

/-- The line of a descendant. -/
def Outline.line (outline : Outline) : String :=
  String.ofList (List.replicate (2 * outline.depth) ' ') ++ outline.level ++ ": "
    ++ outline.message ++ placesText outline.places

/-- What is told of a message that stands so deep. -/
def outlineAt (depth : Nat) (message : CompilerMessage) : Outline :=
  ⟨depth, message.level, message.message,
    message.spans.map fun span => (span.file, span.lineStart)⟩

/-- What is told of the descendants of a message, which stand as deep as their addresses are
long. -/
def outlines (message : CompilerMessage) : List Outline :=
  message.descendants.map fun (address, child) => child.outlineAt address.length

/-- Two spaces for each level below. -/
theorem join_replicate_spaces (depth : Nat) :
    String.join (List.replicate depth "  ") = String.ofList (List.replicate (2 * depth) ' ') := by
  induction depth with
  | zero => rfl
  | succ depth ih =>
      rw [List.replicate_succ, String.join_cons, ih, Nat.mul_succ, Nat.add_comm,
        List.replicate_add, String.ofList_append]
      rfl

theorem references_eq (spans : List CompilerSpan) :
    references spans = placesText (spans.map fun span => (span.file, span.lineStart)) := by
  cases spans with
  | nil => rfl
  | cons span spans =>
      rw [references, placesText, List.map_map]
      · rfl
      · exact List.cons_ne_nil span spans

mutual
/-- A flattened message has the lines of what is listed. -/
theorem flattened_eq (depth : Nat) (message : CompilerMessage) :
    flattened depth message = String.join (message.listed.map fun (address, below) =>
      "\n" ++ (below.outlineAt (depth + address.length)).line) := by
  match message with
  | ⟨text, code, level, spans, children, rendered⟩ =>
      have hline : (outlineAt depth ⟨text, code, level, spans, children, rendered⟩).line
          = String.join (List.replicate depth "  ") ++ level ++ ": " ++ text
            ++ references spans := by
        rw [Outline.line, join_replicate_spaces, references_eq]
        rfl
      simp only [flattened, flattenedAll_eq depth 0 children, listed, List.map_cons,
        String.join_cons, List.length_nil, Nat.add_zero, hline, String.append_assoc]

/-- Flattened children have the lines of what is listed of them. -/
theorem flattenedAll_eq (depth index : Nat) (children : List CompilerMessage) :
    flattenedAll (depth + 1) children
      = String.join ((listedAll index children).map fun (address, below) =>
          "\n" ++ (below.outlineAt (depth + address.length)).line) := by
  match children with
  | [] => rfl
  | child :: children =>
      rw [flattenedAll, flattened_eq (depth + 1) child, flattenedAll_eq depth (index + 1) children,
        listedAll, List.map_append, String.join_append, List.map_map]
      simp only [Function.comp_def, List.length_cons, Nat.add_right_comm, Nat.add_assoc]
end

/-- The text of flattened children is made of what is told of the descendants. -/
theorem flattenedAll_children (message : CompilerMessage) :
    flattenedAll 1 message.children
      = String.join (message.outlines.map fun outline => "\n" ++ outline.line) := by
  rw [flattenedAll_eq 0 0 message.children, outlines, descendants, List.map_map]
  simp only [Function.comp_def, Nat.zero_add]

/-! ## Lines that can be told apart -/

/-- Lines after the first one begin with a line feed. -/
theorem intercalate_cons_eq_join (first : String) (texts : List String) :
    "\n".intercalate (first :: texts) = first ++ String.join (texts.map ("\n" ++ ·)) := by
  induction texts generalizing first with
  | nil => simp
  | cons text texts ih =>
      rw [String.intercalate_cons_cons, List.map_cons, String.join_cons, ih, String.append_assoc,
        String.append_assoc]

/-- A character that is in no text and not between them is not in the whole. -/
theorem not_mem_intercalate {c : Char} {separator : String} {texts : List String}
    (hseparator : c ∉ separator.toList) (h : ∀ text ∈ texts, c ∉ text.toList) :
    c ∉ (separator.intercalate texts).toList := by
  induction texts with
  | nil => simp
  | cons text texts ih =>
      obtain ⟨htext, htexts⟩ := List.forall_mem_cons.1 h
      cases texts with
      | nil => simpa using htext
      | cons next rest =>
          rw [String.intercalate_cons_cons]
          simpa [hseparator, htext] using ih htexts

namespace Outline

variable {outline : Outline}

/-- The level, the message and the file names have no line feed. -/
structure IsSingleLine (outline : Outline) : Prop where
  level : '\n' ∉ outline.level.toList
  message : '\n' ∉ outline.message.toList
  files : ∀ place ∈ outline.places, '\n' ∉ place.1.toList

instance (outline : Outline) : Decidable outline.IsSingleLine :=
  decidable_of_iff ('\n' ∉ outline.level.toList ∧ '\n' ∉ outline.message.toList ∧
      ∀ place ∈ outline.places, '\n' ∉ place.1.toList)
    ⟨fun h => ⟨h.1, h.2.1, h.2.2⟩, fun h => ⟨h.level, h.message, h.files⟩⟩

/-- Then the line has none. -/
theorem IsSingleLine.not_mem_line (h : outline.IsSingleLine) : '\n' ∉ outline.line.toList := by
  have hnumber : ∀ w : UInt32, '\n' ∉ (Text.Decimal.wordText w).toList := by
    intro w hmem
    rw [Text.Decimal.wordText, String.toList_ofList] at hmem
    exact absurd ((Text.Decimal.isRun_write w.toNat).2 _ hmem) (by decide)
  have hplaces : '\n' ∉ (placesText outline.places).toList := by
    unfold placesText
    split
    · exact List.not_mem_nil
    · have hrefs : '\n' ∉ (", ".intercalate (outline.places.map fun (file, line) =>
          file ++ "(" ++ Text.Decimal.wordText line ++ ")")).toList := by
        refine not_mem_intercalate (by decide) fun text htext => ?_
        obtain ⟨place, hplace, rfl⟩ := List.mem_map.1 htext
        simp [h.files place hplace, hnumber]
      simp only [String.toList_append, List.mem_append, not_or]
      exact ⟨⟨by decide, hrefs⟩, by decide⟩
  simp [line, h.level, h.message, hplaces]

/-- The indent of a line shows how deep the descendant stands. -/
theorem takeWhile_line (h : outline.level.toList.head? ≠ some ' ') :
    outline.line.toList.takeWhile (· = ' ') = List.replicate (2 * outline.depth) ' ' := by
  simp only [line, String.append_assoc, String.toList_append, String.toList_ofList]
  refine Text.takeWhile_append_of_head (by simp) fun c hc => ?_
  cases hlevel : outline.level.toList with
  | nil =>
      rw [hlevel] at hc
      obtain rfl : ':' = c := by simpa using hc
      decide
  | cons first others =>
      rw [hlevel] at hc h
      obtain rfl : first = c := by simpa using hc
      simpa using h

end Outline

/-- The text of a message and of its descendants. -/
def fullText (message : CompilerMessage) : String :=
  message.message ++ String.join (message.outlines.map fun outline => "\n" ++ outline.line)

/-- The diagnostic of a message has the text of the message and its descendants. -/
theorem diagnostic?_eq (message : CompilerMessage) :
    message.diagnostic? = message.place?.map fun span => Diagnostic.withCode
      ⟨⟨span.file⟩, span.range, (Severity.ofLabel? message.level).getD .info, message.fullText,
        none⟩ message.code := by
  rw [diagnostic?, flattenedAll_children]
  rfl

/-- Lines without line feeds are told apart. -/
theorem splitOn_fullText (hfirst : '\n' ∉ message.message.toList)
    (hlines : ∀ outline ∈ message.outlines, outline.IsSingleLine) :
    (message.fullText.toList.splitOn '\n').map String.ofList
      = message.message :: message.outlines.map Outline.line := by
  have hwhole : message.fullText
      = "\n".intercalate (message.message :: message.outlines.map Outline.line) := by
    rw [intercalate_cons_eq_join, List.map_map]
    rfl
  rw [hwhole]
  refine Text.splitOn_intercalate rfl (List.cons_ne_nil _ _) (List.forall_mem_cons.2 ⟨hfirst, ?_⟩)
  intro text htext
  obtain ⟨outline, houtline, rfl⟩ := List.mem_map.1 htext
  exact (hlines outline houtline).not_mem_line

/-- A message with a primary span has a diagnostic, whose text is the message and a line for each
descendant, in the order of their addresses and indented by two spaces for each level below. Of a
descendant the line tells the level, the message and where its own spans begin, so children of which
as much is to tell give the same diagnostic. When none of this has a line feed, the lines after the
first one are those of the descendants, and when no level begins with a space their indents show how
deep these stand. -/
theorem message_of_descendants (message : CompilerMessage)
    (h : ∃ span ∈ message.spans, span.isPrimary = true) :
    (message.descendants.Pairwise fun earlier later => earlier.1 < later.1) ∧
    (∀ address child, (address, child) ∈ message.descendants ↔
      address ≠ [] ∧ message.at? address = some child) ∧
    ∃ d, message.diagnostic? = some d ∧
      d.message = message.message
        ++ String.join (message.outlines.map fun outline => "\n" ++ outline.line) ∧
      (∀ children : List CompilerMessage,
        { message with children }.outlines = message.outlines →
          { message with children }.diagnostic? = some d) ∧
      ('\n' ∉ message.message.toList → (∀ outline ∈ message.outlines, outline.IsSingleLine) →
        (d.message.toList.splitOn '\n').map String.ofList
          = message.message :: message.outlines.map Outline.line) ∧
      ∀ outline ∈ message.outlines, outline.level.toList.head? ≠ some ' ' →
        outline.line.toList.takeWhile (· = ' ') = List.replicate (2 * outline.depth) ' ' := by
  refine ⟨pairwise_listedAll 0 message.children, fun _ _ => mem_descendants_iff, ?_⟩
  obtain ⟨span, hspan⟩ := Option.isSome_iff_exists.1 (isSome_place?_iff.2 h)
  have hd := diagnostic?_eq message
  rw [hspan, Option.map_some] at hd
  refine ⟨_, hd, rfl, fun children houtlines => ?_, splitOn_fullText,
    fun outline _ => Outline.takeWhile_line⟩
  have htext : { message with children }.fullText = message.fullText := by
    rw [fullText, houtlines]
    rfl
  have hplace : { message with children }.place? = some span := hspan
  rw [diagnostic?_eq, htext, hplace]
  rfl

/-- A grandchild between two children, one of them with spans of its own. What else the children
have makes no difference. -/
theorem message_of_descendants_grandchild :
    let place : CompilerSpan := ⟨"src/a.rs", 7, 7, 4, 7, true, none⟩
    let used : CompilerSpan := ⟨"src/b.rs", 9, 9, 1, 4, false, some place⟩
    let detail : CompilerMessage := ⟨"nested detail", none, "help", [], [], none⟩
    let child : CompilerMessage := ⟨"due to this", none, "note", [place, used], [detail], none⟩
    let plain : CompilerMessage :=
      ⟨"due to this", some "E1", "note", [place, { used with lineEnd := 12, expansion := none }],
        [detail], some "note"⟩
    let last : CompilerMessage := ⟨"for more information", none, "", [], [], none⟩
    let message : CompilerMessage :=
      ⟨"mismatched types", none, "error", [place], [child, last], none⟩
    (∃ span ∈ message.spans, span.isPrimary = true) ∧
    { message with children := [plain, last] }.outlines = message.outlines ∧
    ∃ d, message.diagnostic? = some d ∧
      { message with children := [plain, last] }.diagnostic? = some d ∧
      (d.message.toList.splitOn '\n').map String.ofList = ["mismatched types",
        "  note: due to this [src/a.rs(7), src/b.rs(9)]", "    help: nested detail",
        "  : for more information"] ∧
      (Outline.line ⟨2, "help", "nested detail", []⟩).toList.takeWhile (· = ' ')
        = List.replicate 4 ' ' := by
  intro place used detail child plain last message
  have hprimary : ∃ span ∈ message.spans, span.isPrimary = true :=
    ⟨place, List.mem_cons_self, rfl⟩
  have hsame : { message with children := [plain, last] }.outlines = message.outlines := by decide
  have hsingle : ∀ outline ∈ message.outlines, outline.IsSingleLine := by decide
  obtain ⟨-, -, d, hd, -, hchildren, hlines, hindent⟩ := message_of_descendants message hprimary
  refine ⟨hprimary, hsame, d, hd, hchildren _ hsame, ?_, hindent _ (by decide) (by decide)⟩
  rw [hlines (by decide) hsingle]
  decide

end Toolbench.CompilerMessage

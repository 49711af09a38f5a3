import Mathlib
import Amalgam.Command.Libraries

/-!
# Records of the journal

What is documented of a logger is little: a record opens with a bracket, the further lines of a text
are indented, and the record ends its line. The last is only sure where no escape character stands
in the text of the event, or where there are colours. Without colours the records pass through a
filter, and a sequence that is still open takes the line feed away.

So no line of a record is taken for one that opens with another word, and records that end their line
leave the lines around them alone.

Main results:

* `standard_documented`: the libraries that the program is built with are so.
* `linesOpening_append`: the lines of two texts, of which the first ends its line.
* `linesOpening_record`: no line of a record opens with a word of the program's own.
-/

namespace Amalgam.Command

open Text.Sequence

/-! ## Indented texts -/

/-- Whether what follows a line feed, if anything does, is a blank. -/
def Indented (s : List Char) : Prop := s.IsChain fun a b => a = '\n' → b = ' '

theorem indented_cons {c : Char} {s : List Char} :
    Indented (c :: s) ↔ (∀ b ∈ s.head?, c = '\n' → b = ' ') ∧ Indented s :=
  List.isChain_cons

theorem Indented.append_of_no_feed {s t : List Char} (hs : '\n' ∉ s) (ht : Indented t) :
    Indented (s ++ t) := by
  induction s with
  | nil => exact ht
  | cons c rest ih =>
    rw [List.mem_cons, not_or] at hs
    exact indented_cons.2 ⟨fun _ _ hc => absurd hc.symm hs.1, ih hs.2⟩

/-- Runs that hold no line feed are indented when each one between them has blanks behind it. -/
theorem indented_intercalate {runs : List (List Char)} (h : ∀ run ∈ runs, '\n' ∉ run) :
    Indented ("\n    ".toList.intercalate runs ++ ['\n']) := by
  induction runs with
  | nil => exact .singleton _
  | cons run rest ih =>
    have hrun := h run List.mem_cons_self
    cases rest with
    | nil =>
      rw [List.intercalate_singleton]
      exact .append_of_no_feed hrun (.singleton _)
    | cons next others =>
      have hrest := ih fun r hr => h r (List.mem_cons_of_mem run hr)
      have hblanks : Indented
          ("    ".toList ++ ("\n    ".toList.intercalate (next :: others) ++ ['\n'])) :=
        .append_of_no_feed (by decide) hrest
      rw [List.intercalate_cons_cons, List.append_assoc, List.append_assoc]
      refine .append_of_no_feed hrun (indented_cons.2 ⟨?_, hblanks⟩)
      rintro _ ⟨⟩ _
      rfl

/-- Behind a line feed that is shown a blank is shown too. -/
theorem shows_blank_of_feed {s : State} (h : s.shows '\n' = true) :
    (s.next '\n').shows ' ' = true := by
  rw [State.next, if_pos h, if_neg (by decide), State.shows]
  split
  · rfl
  · next hmode =>
    have hplain : s.mode = .plain := by simpa using hmode
    rw [hplain]
    rfl

/-- Stripping leaves an indented text indented. -/
theorem Indented.visible {text : List Char} (h : Indented text) (s : State) :
    Indented (visible s text) := by
  induction text generalizing s with
  | nil => exact .nil
  | cons c rest ih =>
    obtain ⟨hblank, hrest⟩ := indented_cons.1 h
    rw [Text.Sequence.visible]
    split
    · next hshown =>
      refine indented_cons.2 ⟨?_, ih hrest _⟩
      cases rest with
      | nil => simp [Text.Sequence.visible]
      | cons b more =>
        rintro a ha rfl
        obtain rfl : b = ' ' := hblank b rfl rfl
        rw [Text.Sequence.visible, if_pos (shows_blank_of_feed hshown)] at ha
        exact (Option.some.inj ha).symm
    · exact ih hrest _

/-! ## What is documented -/

/-- The characters with which a record opens. -/
def recordOpening (coloured : Bool) : List Char :=
  (if coloured then Style.subtle.codes.toList else []) ++ ['[']

/-- Whether a text ends its last line. -/
def EndsLine (text : String) : Prop := ∃ start, text = start ++ "\n"

/-- What is documented of a logger. -/
structure Libraries.Documented (lib : Libraries) : Prop where
  /-- A record opens with a bracket, behind the codes of its style if there are colours. -/
  opening (coloured : Bool) (event : Event) :
    recordOpening coloured <+: (lib.record coloured event).toList
  /-- The further lines of a record are indented. -/
  indented (coloured : Bool) (event : Event) : Indented (lib.record coloured event).toList
  /-- A record ends its line, but for a text with an escape character where there are no colours. -/
  ended (coloured : Bool) (event : Event) (h : coloured = true ∨ '\x1b' ∉ event.text.toList) :
    EndsLine (lib.record coloured event)

theorem closed_paint {style : Style} {text : String} (hstyle : Closed style.codes.toList)
    (h : '\x1b' ∉ text.toList) : Closed (style.paint text).toList := by
  rw [Style.paint, String.toList_append, String.toList_append]
  exact (hstyle.append (closed_of_no_escape h)).append (by decide)

theorem closed_eventHead (event : Event) : Closed (eventHead event).toList := by
  have hlevel : Closed ((levelStyle event.level).paint event.level.column).toList := by
    cases event.level <;> exact closed_paint (by decide) (by decide +kernel)
  have hpart : Closed event.part.name.toList := by
    cases event.part <;> exact closed_of_no_escape (by decide +kernel)
  have hblank : Closed " ".toList := by decide
  simp only [eventHead, String.toList_append]
  have hopen : Closed (Style.subtle.paint "[").toList := closed_paint (by decide) (by decide)
  have hclose : Closed (Style.subtle.paint "]").toList := closed_paint (by decide) (by decide)
  exact ((((hopen.append hlevel).append hblank).append hpart).append hclose).append hblank

theorem no_feed_eventHead (event : Event) : '\n' ∉ (eventHead event).toList := by
  have hlevel : '\n' ∉ ((levelStyle event.level).paint event.level.column).toList := by
    cases event.level <;> decide +kernel
  have hpart : '\n' ∉ event.part.name.toList := by cases event.part <;> decide +kernel
  have hopen : '\n' ∉ (Style.subtle.paint "[").toList := by decide +kernel
  have hclose : '\n' ∉ (Style.subtle.paint "]").toList := by decide +kernel
  simp [eventHead, hlevel, hpart, hopen, hclose]

theorem toList_indented (text : String) :
    (indented text).toList = "\n    ".toList.intercalate (Text.pieces '\n' text.toList) := by
  rw [indented, String.toList_intercalate, List.map_map]
  simp [Function.comp_def]

theorem closed_intercalate {sep : List Char} {runs : List (List Char)} (hsep : Closed sep)
    (h : ∀ run ∈ runs, Closed run) : Closed (sep.intercalate runs) := by
  induction runs with
  | nil => rfl
  | cons run rest ih =>
    have hrun := h run List.mem_cons_self
    have hrest := ih fun r hr => h r (List.mem_cons_of_mem run hr)
    cases rest with
    | nil => rwa [List.intercalate_singleton]
    | cons next others =>
      rw [List.intercalate_cons_cons]
      exact (hrun.append hsep).append hrest

theorem closed_indented {text : String} (h : '\x1b' ∉ text.toList) :
    Closed (indented text).toList := by
  rw [toList_indented]
  exact closed_intercalate (by decide) fun run hrun =>
    closed_of_no_escape fun hc => h (Text.mem_of_mem_pieces hrun hc)

theorem indented_eventLine (event : Event) : Indented (eventLine event).toList := by
  rw [eventLine, String.toList_append, String.toList_append, List.append_assoc, toList_indented]
  exact .append_of_no_feed (no_feed_eventHead event)
    (indented_intercalate fun run hrun => Text.not_mem_of_mem_pieces hrun)

theorem record_standard_false (event : Event) :
    Libraries.standard.record false event = strip (eventLine event) := rfl

/-- The libraries that the program is built with are as documented. -/
theorem standard_documented : Libraries.standard.Documented where
  opening coloured event := by
    obtain ⟨rest, hrest⟩ : ∃ rest, eventLine event = Style.subtle.codes ++ ("[" ++ rest) := by
      simp only [eventLine, eventHead, Style.paint, String.append_assoc]
      exact ⟨_, rfl⟩
    cases coloured with
    | true =>
      refine ⟨rest.toList, ?_⟩
      simp [recordOpening, Libraries.standard, written, hrest]
    | false =>
      have hcodes : Closed Style.subtle.codes.toList := by decide
      have hbracket : Closed "[".toList := by decide
      refine ⟨(strip rest).toList, ?_⟩
      rw [record_standard_false, hrest, hcodes.strip_append, hbracket.strip_append,
        String.toList_append, String.toList_append, ← List.append_assoc]
      congr 1
  indented coloured event := by
    cases coloured with
    | true => exact indented_eventLine event
    | false =>
      simpa [Libraries.standard, written, strip] using (indented_eventLine event).visible .start
  ended coloured event h := by
    cases coloured with
    | true => exact ⟨_, rfl⟩
    | false =>
      have hclosed : Closed (eventHead event ++ indented event.text).toList := by
        rw [String.toList_append]
        exact (closed_eventHead event).append (closed_indented (h.resolve_left (by decide)))
      exact ⟨strip (eventHead event ++ indented event.text), hclosed.strip_append "\n"⟩

/-! ## Lines that open with a word -/

/-- The lines of a text: what stands between its line feeds. -/
def linesOf (text : String) : List String := (Text.pieces '\n' text.toList).map String.ofList

/-- Whether a line opens with a word. -/
def opens (word line : String) : Bool := word.toList.isPrefixOf line.toList

/-- The lines of a text that open with a word, in order. -/
def linesOpening (word text : String) : List String := (linesOf text).filter (opens word)

theorem linesOf_of_no_feed {line : String} (h : '\n' ∉ line.toList) : linesOf line = [line] := by
  rw [linesOf, Text.pieces_of_not_mem h, List.map_singleton, String.ofList_toList]

/-- A word that opens no line of a record: neither the bracket nor a blank agrees with it. -/
structure Foreign (coloured : Bool) (word : String) : Prop where
  nonempty : word.toList ≠ []
  bracket (rest : List Char) : ¬ word.toList <+: recordOpening coloured ++ rest
  blank (rest : List Char) : ¬ word.toList <+: ' ' :: rest

section Word

variable {coloured : Bool} {word : String}

theorem opens_eq_true_iff {line : String} :
    opens word line = true ↔ word.toList <+: line.toList := List.isPrefixOf_iff_prefix

theorem linesOpening_of_no_feed {line : String} (h : '\n' ∉ line.toList)
    (hopens : word.toList <+: line.toList) : linesOpening word line = [line] := by
  rw [linesOpening, linesOf_of_no_feed h, List.filter_singleton, opens_eq_true_iff.2 hopens,
    cond_true]

theorem linesOpening_empty (hword : word.toList ≠ []) : linesOpening word "" = [] := by
  have hopens : ¬ opens word "" = true := fun h =>
    hword (List.prefix_nil.1 (opens_eq_true_iff.1 h))
  rw [linesOpening, linesOf_of_no_feed (by simp), List.filter_singleton]
  simp [hopens]

/-- The lines in front of a line feed, and then those behind it. -/
theorem linesOpening_append_feed (word start more : String) :
    linesOpening word (start ++ "\n" ++ more) = linesOpening word start ++ linesOpening word more := by
  have hcut : linesOf (start ++ "\n" ++ more) = linesOf start ++ linesOf more := by
    simp only [linesOf, String.toList_append, List.append_assoc]
    exact (congrArg _ (Text.pieces_append_cons '\n' _ _)).trans List.map_append
  rw [linesOpening, hcut, List.filter_append, linesOpening, linesOpening]

/-- Behind the last line feed stands no line that opens with a word. -/
theorem linesOpening_feed (hword : word.toList ≠ []) (start : String) :
    linesOpening word (start ++ "\n") = linesOpening word start := by
  have hcut := linesOpening_append_feed word start ""
  rwa [String.append_empty, linesOpening_empty hword, List.append_nil] at hcut

/-- The lines of a text that ends its line, and then those of what follows. -/
theorem linesOpening_append (hword : word.toList ≠ []) {text : String} (h : EndsLine text)
    (more : String) :
    linesOpening word (text ++ more) = linesOpening word text ++ linesOpening word more := by
  obtain ⟨start, rfl⟩ := h
  rw [linesOpening_append_feed, linesOpening_feed hword]

/-- The lines of texts that end their lines, in turn, and then those of what follows. -/
theorem linesOpening_join_append (hword : word.toList ≠ []) {texts : List String}
    (h : ∀ text ∈ texts, EndsLine text) (more : String) :
    linesOpening word (String.join texts ++ more) =
      texts.flatMap (linesOpening word) ++ linesOpening word more := by
  induction texts with
  | nil => simp
  | cons text rest ih =>
    have hrest := ih fun t ht => h t (List.mem_cons_of_mem text ht)
    rw [String.join_cons, String.append_assoc, linesOpening_append hword (h text List.mem_cons_self),
      hrest, List.flatMap_cons, List.append_assoc]

/-- A line of an indented text but the first is empty or opens with a blank. -/
theorem Indented.tail_pieces {s line : List Char} (h : Indented s)
    (hline : line ∈ (Text.pieces '\n' s).tail) : line = [] ∨ ∃ rest, line = ' ' :: rest := by
  induction s with
  | nil => simp [Text.pieces] at hline
  | cons c rest ih =>
    obtain ⟨hblank, hrest⟩ := indented_cons.1 h
    obtain ⟨first, others, heq⟩ := List.exists_cons_of_ne_nil (Text.pieces_ne_nil '\n' rest)
    rw [heq, List.tail_cons] at ih
    by_cases hc : c = '\n'
    · rw [Text.pieces, if_pos hc, List.tail_cons, heq, List.mem_cons] at hline
      rcases hline with rfl | hline
      · -- the line behind this line feed opens the rest
        cases rest with
        | nil => exact .inl (List.cons.inj heq).1.symm
        | cons b more =>
          obtain rfl : b = ' ' := hblank b rfl hc
          obtain ⟨start, lines, hmore⟩ :=
            List.exists_cons_of_ne_nil (Text.pieces_ne_nil '\n' more)
          rw [Text.pieces, if_neg (by decide), hmore] at heq
          exact .inr ⟨start, (List.cons.inj heq).1.symm⟩
      · exact ih hrest hline
    · rw [Text.pieces, if_neg hc, heq, List.tail_cons] at hline
      exact ih hrest hline

/-- No line of a record opens with a word that is foreign to it. -/
theorem linesOpening_record {lib : Libraries} (hlib : lib.Documented) (hword : Foreign coloured word)
    (event : Event) : linesOpening word (lib.record coloured event) = [] := by
  obtain ⟨rest, hrest⟩ := hlib.opening coloured event
  obtain ⟨first, others, heq⟩ := List.exists_cons_of_ne_nil (Text.pieces_ne_nil '\n' rest)
  have hfeed : '\n' ∉ recordOpening coloured := by cases coloured <;> decide
  have hpieces : Text.pieces '\n' (lib.record coloured event).toList =
      (recordOpening coloured ++ first) :: others := by
    rw [← hrest, Text.pieces_append_of_not_mem hfeed heq]
  rw [linesOpening, List.filter_eq_nil_iff, linesOf, List.forall_mem_map]
  intro line hline hopens
  rw [opens_eq_true_iff, String.toList_ofList] at hopens
  rcases List.mem_cons.1 (hpieces ▸ hline) with rfl | hothers
  · exact hword.bracket first hopens
  · have htail : line ∈ (Text.pieces '\n' (lib.record coloured event).toList).tail := by
      rw [hpieces]
      exact hothers
    obtain rfl | ⟨rest, rfl⟩ := (hlib.indented coloured event).tail_pieces htail
    · exact hword.nonempty (List.prefix_nil.1 hopens)
    · exact hword.blank rest hopens

end Word

end Amalgam.Command

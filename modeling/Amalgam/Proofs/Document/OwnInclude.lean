import Mathlib
import Amalgam.Proofs.Document.Lines
import Amalgam.Proofs.Run.Effect

/-!
# The include line of the source document

The source document includes the header document by its file name, which stands between double
quotes as it is. So the line names that file as long as the name can stand there: a target with a
double quote is cut off at it, and one with a line feed is broken into lines.

Main results:

* `quoted?_ownInclude`: what the line quotes, and what is left behind it.
* `fileName?_header`: the name of the file that the header document is written to.
* `Config.own_include_names_header`: when the line names that file.
-/

namespace Amalgam

open Text Document

/-! ## Quoted names -/

/-- What stands between the first two double quotes of a text, and what stands behind them. -/
def Text.quoted? (text : List Char) : Option (List Char × List Char) :=
  (cutAt? '"' text).bind fun cut => cutAt? '"' cut.2

/-- Whether a line is one line that quotes a name and ends with it. -/
structure Quotes (line name : String) : Prop where
  isLine : IsLine line
  quoted : quoted? line.toList = some (name.toList, [])

instance (line name : String) : Decidable (Quotes line name) :=
  decidable_of_iff (IsLine line ∧ quoted? line.toList = some (name.toList, []))
    ⟨fun h => ⟨h.1, h.2⟩, fun h => ⟨h.isLine, h.quoted⟩⟩

/-! ## The include line -/

theorem toList_ownInclude (name : String) :
    (ownInclude name).toList = "#include ".toList ++ '"' :: (name.toList ++ ['"']) := by
  have hfront : "#include \"".toList = "#include ".toList ++ ['"'] := by decide
  have hback : "\"".toList = ['"'] := by decide
  rw [ownInclude, String.toList_append, String.toList_append, hfront, hback]
  simp only [List.append_assoc, List.cons_append, List.nil_append]

/-- The include line quotes its name up to the first double quote. -/
theorem quoted?_ownInclude (name : String) :
    quoted? (ownInclude name).toList = cutAt? '"' (name.toList ++ ['"']) := by
  -- The first double quote is the one that opens the name.
  have hcut : cutAt? '"' (ownInclude name).toList =
      some ("#include ".toList, name.toList ++ ['"']) :=
    cutAt?_eq_some_iff.2 ⟨toList_ownInclude name, by decide⟩
  rw [quoted?, hcut, Option.bind_some]

theorem isLine_ownInclude_iff {name : String} : IsLine (ownInclude name) ↔ IsLine name := by
  rw [IsLine, toList_ownInclude, IsLine]
  simp

/-- The include line quotes its name when no double quote and no line feed stands in it. -/
theorem quotes_ownInclude_iff {name : String} :
    Quotes (ownInclude name) name ↔ '"' ∉ name.toList ∧ IsLine name := by
  have hquoted : quoted? (ownInclude name).toList = some (name.toList, []) ↔ '"' ∉ name.toList := by
    rw [quoted?_ownInclude, cutAt?_eq_some_iff, and_iff_right rfl]
  constructor
  · rintro ⟨hline, hname⟩
    exact ⟨hquoted.1 hname, isLine_ownInclude_iff.1 hline⟩
  · rintro ⟨hquote, hline⟩
    exact ⟨isLine_ownInclude_iff.2 hline, hquoted.2 hquote⟩

/-! ## The file that is included -/

section Config

variable {c : Config}

theorem fileName?_header (h : c.validate = .ok ()) (dest : Path) :
    (c.outputs dest).header.fileName? = some c.headerName :=
  have ⟨hplain, hslash⟩ := (plain_names h).1
  Path.fileName?_join hplain hslash dest

theorem mem_headerName_iff {x : Char} (hx : x ∉ ".h".toList) :
    x ∈ c.headerName.toList ↔ x ∈ c.target.toList := by
  rw [Config.headerName, String.toList_append, List.mem_append, or_iff_left hx]

/-- The source document of a configuration that can be run has one line between its include block
and its sections that is to include the header document. That line quotes the name of the file that
the header document is written to, and ends with it, as long as the target holds no double quote and
no line feed. A target with a double quote is quoted up to there, and the rest is left behind. -/
theorem Config.own_include_names_header (h : c.validate = .ok ()) (classification : Classification)
    (dest : Path) :
    ∃ line name : String,
      (c.assemble classification).documents.source =
        [notice, ""] ++ classification.internalIncludes.render ++ [line] ++
          (sourceSections classification).flatMap Section.lines ∧
      (c.outputs dest).header.fileName? = some name ∧
      (∀ (d : Disk) (documents : Documents) (outputs : Outputs),
        (writeDocuments d dest documents c).result = .ok outputs →
          outputs.header.fileName? = some name) ∧
      (Quotes line name ↔ '"' ∉ c.target.toList ∧ '\n' ∉ c.target.toList) ∧
      ∀ before after : List Char, c.target.toList = before ++ '"' :: after → '"' ∉ before →
        quoted? line.toList = some (before, after ++ ".h\"".toList) := by
  refine ⟨ownInclude c.headerName, c.headerName, rfl, fileName?_header h dest,
    fun d documents outputs hwrite => ?_, ?_, fun before after htarget hbefore => ?_⟩
  · rw [outputs_of_writeDocuments hwrite, fileName?_header h dest]
  · rw [quotes_ownInclude_iff, IsLine, mem_headerName_iff (by decide),
      mem_headerName_iff (by decide)]
  · -- The second one stands in the target, so the ending and the last quote are behind it.
    have hend : ".h\"".toList = ".h".toList ++ ['"'] := by decide
    rw [quoted?_ownInclude, cutAt?_eq_some_iff, Config.headerName, String.toList_append, htarget,
      hend]
    exact ⟨by simp, hbefore⟩

/-- A target with blanks and an apostrophe. -/
theorem Config.own_include_names_header_blanks :
    let c : Config := { src := ["src"], dest := "out", target := " it's  one " }
    c.validate = .ok () ∧ (c.outputs c.dest).header = ⟨"out/ it's  one .h"⟩ ∧
      (c.assemble .empty).documents.source[2]? = some "#include \" it's  one .h\"" ∧
      Quotes "#include \" it's  one .h\"" " it's  one .h" := by
  intro c
  have hvalid : c.validate = .ok () := by decide +kernel
  have hblock : Classification.empty.internalIncludes.render = [] := by decide +kernel
  have hthird : (c.assemble .empty).documents.source[2]? = some "#include \" it's  one .h\"" := by
    decide +kernel
  have hfile : (c.outputs c.dest).header.fileName? = some " it's  one .h" := by decide +kernel
  obtain ⟨line, name, hsource, hname, -, hquotes, -⟩ :=
    Config.own_include_names_header hvalid .empty c.dest
  rw [hblock] at hsource
  obtain rfl : line = "#include \" it's  one .h\"" := by
    rw [hsource] at hthird
    exact Option.some.inj hthird
  obtain rfl := Option.some.inj (hname.symm.trans hfile)
  exact ⟨hvalid, by decide +kernel, hthird, hquotes.2 (by decide +kernel)⟩

/-- A target with a double quote: the header document is written to a file that no line of the
source document names. -/
theorem Config.own_include_cut_off :
    let c : Config := { src := ["src"], target := "a\"b" }
    c.validate = .ok () ∧ (c.outputs c.dest).header.fileName? = some "a\"b.h" ∧
      Classification.ofFiles [] [] = .ok .empty ∧
      (c.assemble .empty).documents.source[2]? = some "#include \"a\"b.h\"" ∧
      quoted? "#include \"a\"b.h\"".toList = some ("a".toList, "b.h\"".toList) ∧
      ∀ line ∈ (c.assemble .empty).documents.source, ¬ Quotes line "a\"b.h" := by
  refine ⟨by decide +kernel, by decide +kernel, rfl, by decide +kernel, by decide +kernel, ?_⟩
  decide +kernel

end Config

end Amalgam

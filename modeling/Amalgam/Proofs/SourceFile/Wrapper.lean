import Mathlib
import Amalgam.Proofs.SourceFile.Parts
import Amalgam.Proofs.Text.Comment

/-!
# The comments around a file

The lines of a file stand between a banner and a footer, each of which holds its path as it is. So a
path can close the comment that names it: it does when a directory on its way has a name that ends
in a star, since a slash follows that. On any other path banner and footer are one comment each.

Main results:

* `unclosed_spelling_iff`: which paths close no comment.
* `parse_wrapped_in_comments`: when banner and footer are comments, and what is left of them when
  they are not.
-/

namespace Amalgam

open Text Text.Comment

/-- Whether a name on the path that a slash follows ends in a star. -/
def Path.HasStarredFolder (p : Path) : Prop :=
  ∃ folder ∈ (pieces '/' p.spelling.toList).dropLast, folder.getLast? = some '*'

instance (p : Path) : Decidable p.HasStarredFolder := inferInstanceAs (Decidable (∃ _ ∈ _, _))

/-- The paths that close no comment are those without such a name. -/
theorem Path.unclosed_spelling_iff {p : Path} :
    Unclosed p.spelling.toList ↔ ¬ p.HasStarredFolder := by
  -- A name holds no slash, so a mark can only be made by the end of a name and the slash behind it.
  have h : Unclosed (['/'].intercalate (pieces '/' p.spelling.toList)) ↔ _ :=
    unclosed_intercalate_iff fun _ hrun => not_mem_of_mem_pieces hrun
  rw [intercalate_pieces] at h
  simpa only [HasStarredFolder, not_exists, not_and] using h

namespace SourceFile

/-- What the banner has around the path. -/
def bannerFrame : Frame where
  front := "\n * ===== BEGIN ".toList
  back := " =====\n ".toList
  front_unclosed := by decide
  back_unclosed := by decide
  getLast?_front := by decide
  head?_back := by decide

/-- What the footer has around the path. -/
def footerFrame : Frame where
  front := " ===== END ".toList
  back := " ===== ".toList
  front_unclosed := by decide
  back_unclosed := by decide
  getLast?_front := by decide
  head?_back := by decide

/-- The first three lines of the body, with a line feed between them. -/
def bannerText (f : SourceFile) : List Char := ("\n".intercalate (f.body.take 3)).toList

theorem toList_footer (path : Path) :
    (footer path).toList = footerFrame.text path.spelling.toList := by
  have hfront : "/* ===== END ".toList = opening ++ footerFrame.front := by decide
  have hback : " ===== */".toList = footerFrame.back ++ closing := by decide
  rw [footer, String.toList_append, String.toList_append, hfront, hback, Frame.text]
  simp only [List.append_assoc]

theorem toList_banner (path : Path) :
    ("\n".intercalate (banner path)).toList = bannerFrame.text path.spelling.toList := by
  have hfront : "/*".toList ++ "\n".toList ++ " * ===== BEGIN ".toList =
      opening ++ bannerFrame.front := by decide
  have hback : " =====".toList ++ ("\n".toList ++ " */".toList) = bannerFrame.back ++ closing := by
    decide
  rw [banner, String.intercalate_cons_cons, String.intercalate_cons_cons,
    String.intercalate_singleton, Frame.text, ← hback, ← List.append_assoc opening,
    ← List.append_assoc opening, ← hfront]
  simp only [String.toList_append, List.append_assoc]

theorem bannerText_of_body {f : SourceFile} {path : Path} {more : List String}
    (h : f.body = banner path ++ more) : f.bannerText = bannerFrame.text path.spelling.toList := by
  have hlength : (banner path).length = 3 := rfl
  rw [bannerText, h, ← hlength, List.take_left, toList_banner]

/-- On a path with no directory whose name ends in a star, banner and footer are one comment each,
and whatever follows them is read as if they were not there. On any other path neither is one: both
end behind the first such name, and the rest of the path is left over. -/
theorem parse_wrapped_in_comments {path : Path} {kind : Kind} {text : String} {f : SourceFile}
    (h : parse path kind text = .ok f) :
    ∃ last : String, f.body.getLast? = some last ∧
      (IsComment f.bannerText ↔ ¬ path.HasStarredFolder) ∧
      (IsComment last.toList ↔ ¬ path.HasStarredFolder) ∧
      ∀ more : List Char,
        rest? (f.bannerText ++ more) =
          some ((behind? path.spelling.toList).elim [] (· ++ " =====\n */".toList) ++ more) ∧
        rest? (last.toList ++ more) =
          some ((behind? path.spelling.toList).elim [] (· ++ " ===== */".toList) ++ more) := by
  obtain ⟨mark, -, hf⟩ := parse_eq_ok_iff.1 h
  have hbody : f.body =
      banner path ++ (content (afterMark mark (linesOf text)) ++ [footer path]) := by
    rw [hf, List.append_assoc]
  have htext := bannerText_of_body hbody
  have hbanner : " =====\n */".toList = bannerFrame.back ++ closing := by decide
  have hfooter : " ===== */".toList = footerFrame.back ++ closing := by decide
  refine ⟨footer path, by simp [hbody], ?_, ?_, fun more => ⟨?_, ?_⟩⟩
  · rw [htext, bannerFrame.isComment_text_iff, Path.unclosed_spelling_iff]
  · rw [toList_footer, footerFrame.isComment_text_iff, Path.unclosed_spelling_iff]
  · rw [htext, bannerFrame.rest?_text, hbanner]
  · rw [toList_footer, footerFrame.rest?_text, hfooter]

/-- Stars at the start of a directory's name and in that of the file. -/
theorem parse_wrapped_in_comments_stars :
    let f : SourceFile := ⟨"/x/*y/z*.h", .header, none, none,
      ["/*", " * ===== BEGIN /x/*y/z*.h =====", " */", "int z;",
        "/* ===== END /x/*y/z*.h ===== */"], []⟩
    parse "/x/*y/z*.h" .header "int z;" = .ok f ∧ IsComment f.bannerText ∧
      IsComment "/* ===== END /x/*y/z*.h ===== */".toList := by
  intro f
  have h : parse "/x/*y/z*.h" .header "int z;" = .ok f := by decide +kernel
  have hpath : ¬ Path.HasStarredFolder "/x/*y/z*.h" := by decide +kernel
  obtain ⟨last, hlast, hbanner, hfooter, -⟩ := parse_wrapped_in_comments h
  obtain rfl := Option.some.inj hlast
  exact ⟨h, hbanner.2 hpath, hfooter.2 hpath⟩

/-- A directory whose name ends in a star: the path closes both comments behind it. -/
theorem parse_unwrapped_by_path :
    let f : SourceFile := ⟨"src/a*/b.h", .header, none, none,
      ["/*", " * ===== BEGIN src/a*/b.h =====", " */", "int b;",
        "/* ===== END src/a*/b.h ===== */"], []⟩
    parse "src/a*/b.h" .header "int b;\n" = .ok f ∧
      ¬ IsComment f.bannerText ∧ rest? f.bannerText = some "b.h =====\n */".toList ∧
      ¬ IsComment "/* ===== END src/a*/b.h ===== */".toList ∧
      rest? "/* ===== END src/a*/b.h ===== */".toList = some "b.h ===== */".toList := by
  decide +kernel

end SourceFile

end Amalgam

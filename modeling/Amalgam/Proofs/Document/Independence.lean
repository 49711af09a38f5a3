import Mathlib
import Amalgam.Document
import Amalgam.Proofs.Classification.Groups

/-!
# What each document depends on

A document depends on the files of its own groups only. Where files have places, their order in the
input does not matter; headers without a mark and implementations are written in the order of the
input.

Main results:

* `Sorts.table_eq`, `Sorts.includesOf_eq`: the parts of two classifications agree for a group whose
  files are the same up to order.
* `documents_independent`: the header document depends on the exposed headers up to order, the source
  document on the ranked headers up to order and on the other two groups.
-/

namespace Amalgam

open Classification Document Amalgam.Include

namespace Classification

variable {c c' : Classification} {files files' : List SourceFile}

theorem Sorts.table_eq (h : c.Sorts files) (h' : c'.Sorts files') {series : Series}
    (hp : ((Group.placed series).members files).Perm ((Group.placed series).members files')) :
    c.table series = c'.table series :=
  Ascending.table_unique (h.places series) (h'.places series) hp

theorem Sorts.includesOf_eq (h : c.Sorts files) (h' : c'.Sorts files') {g : Group}
    (hp : (g.members files).Perm (g.members files')) : c.includesOf g = c'.includesOf g := by
  apply Std.ExtTreeSet.ext_mem
  intro d
  rw [h.includes, h'.includes]
  simp only [hp.mem_iff]

/-- The internal directives are those of the three groups that are not exposed. -/
theorem internalIncludes_eq (c : Classification) :
    c.internalIncludes = IncludeSet.merge
      (IncludeSet.merge (c.includesOf (.placed .rank)) (c.includesOf .unplaced))
      (c.includesOf .implementation) := rfl

end Classification

variable {c c' : Classification} {files files' : List SourceFile}

/-- The header document is made from the exposed headers alone, in whatever order they came. -/
theorem header_eq_of_perm (h : c.Sorts files) (h' : c'.Sorts files')
    (hp : ((Group.placed .expose).members files).Perm ((Group.placed .expose).members files')) :
    Document.header c = Document.header c' := by
  have htable : c.exposed = c'.exposed := h.table_eq h' hp
  have hincludes : c.exposedIncludes = c'.exposedIncludes := h.includesOf_eq h' hp
  unfold Document.header headerSections
  rw [htable, hincludes]

/-- The source document is made from the ranked headers, in whatever order they came, and from the
headers without a mark and the implementations, in the order they came. -/
theorem source_eq_of_perm (h : c.Sorts files) (h' : c'.Sorts files')
    (hp : ((Group.placed .rank).members files).Perm ((Group.placed .rank).members files'))
    (hu : Group.unplaced.members files = Group.unplaced.members files')
    (hi : Group.implementation.members files = Group.implementation.members files')
    (headerName : String) : Document.source c headerName = Document.source c' headerName := by
  have htable : c.ranked = c'.ranked := h.table_eq h' hp
  have hincludes : c.internalIncludes = c'.internalIncludes := by
    rw [internalIncludes_eq, internalIncludes_eq, h.includesOf_eq h' hp,
      h.includesOf_eq h' (.of_eq hu), h.includesOf_eq h' (.of_eq hi)]
  unfold Document.source sourceSections
  rw [htable, hincludes, h.unranked, h'.unranked, h.implementations, h'.implementations, hu, hi]

/-- Two inputs with the same exposed headers up to order have the same header document, whatever
else they hold; two inputs with the same ranked headers up to order, the same headers without a mark
and the same implementations have the same source document, whatever is exposed. -/
theorem documents_independent {headers implementations headers' implementations' : List SourceFile}
    (h : ofFiles headers implementations = .ok c) (h' : ofFiles headers' implementations' = .ok c') :
    let files := headers ++ implementations
    let files' := headers' ++ implementations'
    (((Group.placed .expose).members files).Perm ((Group.placed .expose).members files') →
      Document.header c = Document.header c') ∧
    (((Group.placed .rank).members files).Perm ((Group.placed .rank).members files') →
      Group.unplaced.members files = Group.unplaced.members files' →
      Group.implementation.members files = Group.implementation.members files' →
      ∀ headerName, Document.source c headerName = Document.source c' headerName) :=
  ⟨header_eq_of_perm (sorts_ofFiles h) (sorts_ofFiles h'),
    source_eq_of_perm (sorts_ofFiles h) (sorts_ofFiles h')⟩

/-- Headers of every group, those of one group not next to each other. -/
def interleavedHeaders : List SourceFile :=
  [⟨"/e.h", .header, none, some 7, ["int e;"], [.plain ⟨.angle, "e"⟩]⟩,
    ⟨"/a.h", .header, some 10, none, ["int a;"], [.plain ⟨.quote, "u.h"⟩]⟩,
    ⟨"/u.h", .header, none, none, ["int u;"], [.precede "#undef U" ⟨.angle, "u"⟩]⟩,
    ⟨"/f.h", .header, none, some 3, ["int f;"], [.plain ⟨.angle, "f"⟩]⟩,
    ⟨"/b.h", .header, some 2, none, ["int b;"], [.plain ⟨.quote, "e.h"⟩]⟩]

theorem documents_independent_interleaved :
    ∃ c exposed internal, ofFiles interleavedHeaders [] = .ok c ∧
      ofFiles (interleavedHeaders.reverse.filter fun f => f.exposeRank ≠ none) [] = .ok exposed ∧
      ofFiles (interleavedHeaders.reverse.filter fun f => f.exposeRank = none) [] = .ok internal ∧
      Document.header c = Document.header exposed ∧
      Document.source c "out.h" = Document.source internal "out.h" := by
  have h : ofFiles interleavedHeaders [] = .ok _ := rfl
  have he : ofFiles (interleavedHeaders.reverse.filter fun f => f.exposeRank ≠ none) [] = .ok _ :=
    rfl
  have hi : ofFiles (interleavedHeaders.reverse.filter fun f => f.exposeRank = none) [] = .ok _ :=
    rfl
  exact ⟨_, _, _, h, he, hi, (documents_independent h he).1 (by decide +kernel),
    (documents_independent h hi).2 (by decide +kernel) (by decide +kernel) (by decide +kernel) "out.h"⟩

end Amalgam

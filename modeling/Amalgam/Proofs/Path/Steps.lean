import Mathlib
import Amalgam.Path.Normal

/-!
# The steps of a path

A path that is built from steps has these steps again, as long as they come from a path. So what
stands above a path goes the first steps of its way, and a name put below a path adds one step.

Main results:

* `components_ofComponents`: building a path from the first steps of another one.
* `begins_of_mem_ancestors`: every path above another goes the first steps of its way.
* `names_join_of_relative`: the names of a joined path are those of its two parts.
* `components_join`: a plain name below a path is one more step.
-/

namespace Amalgam.Path

open Text

/-! ## Names and the steps they stand for -/

/-- A step that is written as a name between slashes. -/
inductive Component.IsMove : Component → Prop where
  | up : IsMove .up
  | name {text : String} (plain : IsPlain text) (slash : '/' ∉ text.toList) : IsMove (.name text)

section Move

variable {step : Component} (h : step.IsMove)

include h

theorem Component.IsMove.text_ne : step.text ≠ "" := by
  cases h with
  | up => decide
  | name plain slash => exact plain.1

theorem Component.IsMove.slash_not_mem : '/' ∉ step.text.toList := by
  cases h with
  | up => decide
  | name plain slash => exact slash

theorem Component.IsMove.step?_text : step? step.text = some step := by
  cases h with
  | up => rfl
  | name plain slash => simp [step?, Component.text, plain.2.1, plain.2.2]

theorem Component.IsMove.ne_root : step ≠ .root := by
  cases h <;> simp

end Move

theorem not_mem_of_mem_names {p : Path} {name : String} (h : name ∈ p.names) :
    name ≠ "" ∧ '/' ∉ name.toList := by
  obtain ⟨piece, hp, rfl⟩ := List.mem_map.1 h
  obtain ⟨hmem, hne⟩ := List.mem_filter.1 hp
  refine ⟨fun h0 => ?_, by simpa using not_mem_of_mem_pieces hmem⟩
  have : piece = [] := by simpa using congrArg String.toList h0
  simp [this] at hne

theorem isMove_of_step? {name : String} {step : Component} (h : step? name = some step)
    (hname : name ≠ "" ∧ '/' ∉ name.toList) : step.IsMove := by
  rw [step?] at h
  split at h
  · cases h
  · next hdot =>
    split at h
    · cases h
      exact .up
    · next hup =>
      cases h
      exact .name ⟨hname.1, hdot, hup⟩ hname.2

theorem isMove_of_mem_moves {p : Path} {step : Component} (h : step ∈ p.names.filterMap step?) :
    step.IsMove := by
  obtain ⟨name, hname, hstep⟩ := List.mem_filterMap.1 h
  exact isMove_of_step? hstep (not_mem_of_mem_names hname)

/-- The root and a leading dot are steps that lead nowhere. -/
theorem start_cases (p : Path) :
    p.start = [] ∨ ∃ step, p.start = [step] ∧ ∀ here, walk here step = here := by
  rw [start]
  split
  · exact .inr ⟨.root, rfl, fun _ => rfl⟩
  · split
    · exact .inr ⟨.here, rfl, fun _ => rfl⟩
    · exact .inl rfl

theorem foldl_walk_start (p : Path) (here : List String) : p.start.foldl walk here = here := by
  rcases start_cases p with hs | ⟨step, hs, hstay⟩
  · rw [hs, List.foldl_nil]
  · rw [hs, List.foldl_cons, List.foldl_nil, hstay]

/-- Only the names of a path lead anywhere. -/
theorem foldl_walk_components (p : Path) (here : List String) :
    p.components.foldl walk here = (p.names.filterMap step?).foldl walk here := by
  rw [components, List.foldl_append, foldl_walk_start]

/-! ## Paths from steps -/

theorem toList_joinNames (names : List String) :
    (joinNames names).toList = ['/'].intercalate (names.map String.toList) := by
  rw [joinNames, String.toList_intercalate]
  rfl

/-- Names joined by slashes are the names of the path. -/
theorem names_joinNames {names : List String} (h : ∀ name ∈ names, '/' ∉ name.toList) :
    (Path.mk (joinNames names)).names = names.filter (· ≠ "") := by
  cases names with
  | nil => rfl
  | cons name rest =>
    have hcut : pieces '/' (joinNames (name :: rest)).toList = (name :: rest).map String.toList := by
      rw [toList_joinNames]
      exact pieces_intercalate (by simp) (by simpa using h)
    rw [Path.names, hcut, List.filter_map, List.map_map]
    simp [Function.comp_def]

theorem isAbsolute_joinNames_cons {name : String} (rest : List String) (hne : name ≠ "")
    (hslash : '/' ∉ name.toList) : (Path.mk (joinNames (name :: rest))).isAbsolute = false := by
  obtain ⟨c, cs, hc⟩ := List.exists_cons_of_ne_nil (l := name.toList) (by simpa using hne)
  have hfirst : c ≠ '/' := by
    rintro rfl
    simp [hc] at hslash
  rw [isAbsolute, toList_joinNames]
  cases rest <;> simp [hc, hfirst]

theorem isAbsolute_iff {p : Path} : p.isAbsolute = true ↔ p.components.head? = some .root := by
  constructor
  · intro h
    simp [components, start, h]
  · intro h
    by_contra hrel
    rw [components, start, if_neg hrel] at h
    split at h
    · cases h
    · exact (isMove_of_mem_moves (List.mem_of_head? h)).ne_root rfl

section Moves

variable {moves : List Component} (h : ∀ step ∈ moves, step.IsMove)

include h

theorem filterMap_step?_text : (moves.map Component.text).filterMap step? = moves := by
  rw [List.filterMap_map]
  conv_rhs => rw [← List.filterMap_some (l := moves)]
  exact List.filterMap_congr fun step hs => (h step hs).step?_text

/-- The names of a path built from one name and then from moves. -/
theorem names_joinNames_cons {first : String} (hfirst : '/' ∉ first.toList) :
    (Path.mk (joinNames (first :: moves.map Component.text))).names =
      [first].filter (· ≠ "") ++ moves.map Component.text := by
  have hkeep : (moves.map Component.text).filter (· ≠ "") = moves.map Component.text := by
    rw [List.filter_eq_self]
    simpa using fun step hs => (h step hs).text_ne
  rw [names_joinNames, ← List.singleton_append, List.filter_append, hkeep]
  simpa [hfirst] using fun step hs => (h step hs).slash_not_mem

/-- A path built from moves alone. -/
theorem components_ofMoves : (ofComponents moves).components = moves := by
  cases moves with
  | nil => rfl
  | cons step rest =>
    have hstep := h step List.mem_cons_self
    have hdot : step.text ≠ "." := fun hd => by simpa [hd, step?] using hstep.step?_text
    have hspelling : ofComponents (step :: rest) =
        ⟨joinNames (step.text :: rest.map Component.text)⟩ := by
      rw [ofComponents, List.map_cons]
      exact fun heq => hstep.ne_root (List.cons.inj heq).1
    have hnames := names_joinNames_cons (fun s hs => h s (List.mem_cons_of_mem _ hs))
      hstep.slash_not_mem
    rw [hspelling, components, start,
      isAbsolute_joinNames_cons _ hstep.text_ne hstep.slash_not_mem, hnames]
    simpa [hstep.text_ne, hdot] using filterMap_step?_text h

/-- A path built from the root and moves. -/
theorem components_ofRoot : (ofComponents (.root :: moves)).components = .root :: moves := by
  cases moves with
  | nil => rfl
  | cons step rest =>
    have hspelling : ofComponents (.root :: step :: rest) =
        ⟨joinNames ("" :: (step :: rest).map Component.text)⟩ := rfl
    have habs : (ofComponents (.root :: step :: rest)).isAbsolute = true := by
      rw [hspelling, isAbsolute, toList_joinNames]
      simp [List.intercalate_cons_cons]
    rw [components, start, if_pos habs, hspelling, names_joinNames_cons h (by simp)]
    simpa using filterMap_step?_text h

/-- A path built from a leading dot and moves. -/
theorem components_ofHere : (ofComponents (.here :: moves)).components = .here :: moves := by
  have hspelling : ofComponents (.here :: moves) =
      ⟨joinNames ("." :: moves.map Component.text)⟩ := rfl
  rw [hspelling, components, start, isAbsolute_joinNames_cons _ (by decide) (by decide),
    names_joinNames_cons h (by decide)]
  simpa [step?] using filterMap_step?_text h

end Moves

/-- A path built from the first steps of another one has these steps. -/
theorem components_ofComponents {p : Path} {steps : List Component} (h : steps <+: p.components) :
    (ofComponents steps).components = steps := by
  have moves {more : List Component} (hmore : more <+: p.names.filterMap step?) :
      ∀ step ∈ more, step.IsMove := fun step hs => isMove_of_mem_moves (hmore.mem hs)
  rw [components, start] at h
  split at h
  · rcases List.prefix_cons_iff.1 h with rfl | ⟨more, rfl, hmore⟩
    · rfl
    · exact components_ofRoot (moves hmore)
  · split at h
    · rcases List.prefix_cons_iff.1 h with rfl | ⟨more, rfl, hmore⟩
      · rfl
      · exact components_ofHere (moves hmore)
    · exact components_ofMoves (moves h)

/-! ## The paths above a path -/

/-- Whether a path goes the first steps of the way of another one. -/
structure Begins (p q : Path) : Prop where
  steps : p.components <+: q.components
  start : p.isAbsolute = q.isAbsolute

theorem Begins.refl (p : Path) : p.Begins p := ⟨List.prefix_rfl, rfl⟩

theorem Begins.trans {p q r : Path} (h : p.Begins q) (h' : q.Begins r) : p.Begins r :=
  ⟨h.steps.trans h'.steps, h.start.trans h'.start⟩

theorem head?_dropLast_ne {steps : List Component} (h : steps.getLast? ≠ some .root) :
    steps.dropLast.head? = some .root ↔ steps.head? = some .root := by
  match steps with
  | [] => rfl
  | [step] => simpa using h
  | _ :: _ :: _ => rfl

theorem parent?_eq_some {p q : Path} (h : p.parent? = some q) :
    p.components.getLast? ≠ some .root ∧ ofComponents p.components.dropLast = q := by
  rw [parent?] at h
  generalize p.components.getLast? = last at h ⊢
  match last with
  | none | some .root => cases h
  | some .here | some .up | some (.name _) => exact ⟨by simp, Option.some.inj h⟩

theorem begins_of_parent? {p q : Path} (h : p.parent? = some q) : q.Begins p := by
  obtain ⟨hroot, rfl⟩ := parent?_eq_some h
  have hsteps := components_ofComponents (List.dropLast_prefix p.components)
  refine ⟨hsteps.symm ▸ List.dropLast_prefix _, ?_⟩
  rw [Bool.eq_iff_iff, isAbsolute_iff, isAbsolute_iff, hsteps]
  exact head?_dropLast_ne hroot

/-- Every path above another goes the first steps of its way. -/
theorem begins_of_mem_ancestors {p q : Path} (h : q ∈ p.ancestors) : q.Begins p := by
  rw [ancestors] at h
  generalize p.components.length = count at h
  induction count generalizing p with
  | zero => exact List.mem_singleton.1 h ▸ .refl q
  | succ count ih =>
    rw [ancestorsUpTo] at h
    rcases List.mem_cons.1 h with rfl | h
    · exact .refl q
    · split at h
      · cases h
      · next parent hparent => exact (ih h).trans (begins_of_parent? hparent)

/-! ## A name below a path -/

/-- Around a slash the names are those of the two sides. -/
theorem names_of_slash {p : Path} {before after : List Char}
    (h : p.spelling.toList = before ++ '/' :: after) :
    p.names = (Path.mk (.ofList before)).names ++ (Path.mk (.ofList after)).names := by
  simp [names, h, pieces_append_cons]

/-- The names of a joined path are those of its two parts. -/
theorem names_join_of_relative {q : Path} (hq : q.isAbsolute = false) (p : Path) :
    (p.join q).names = p.names ++ q.names := by
  rw [join, hq, if_neg (by decide)]
  split
  · next h =>
    by_cases h0 : p.spelling = ""
    · have hp : p.names = [] := by simp [names, h0, pieces]
      simp [hp, h0]
    · obtain ⟨before, hbefore⟩ := List.getLast?_eq_some_iff.1 (h.resolve_left h0)
      have hjoin : (p.spelling ++ q.spelling).toList = before ++ '/' :: q.spelling.toList := by
        simp [hbefore]
      have hend : (Path.mk (.ofList [])).names = [] := rfl
      rw [names_of_slash (p := ⟨p.spelling ++ q.spelling⟩) hjoin, names_of_slash hbefore, hend,
        List.append_nil, String.ofList_toList]
  · have hjoin : (p.spelling ++ "/" ++ q.spelling).toList =
        p.spelling.toList ++ '/' :: q.spelling.toList := by simp
    rw [names_of_slash (p := ⟨p.spelling ++ "/" ++ q.spelling⟩) hjoin, String.ofList_toList,
      String.ofList_toList]

section Join

variable {name : String} (hplain : IsPlain name) (hslash : '/' ∉ name.toList)

include hplain hslash

theorem isAbsolute_of_isPlain : (Path.mk name).isAbsolute = false := by
  simpa [joinNames] using isAbsolute_joinNames_cons [] hplain.1 hslash

theorem names_of_isPlain : (Path.mk name).names = [name] := by
  simpa [joinNames, hplain.1] using names_joinNames_cons (List.forall_mem_nil Component.IsMove) hslash

/-- How a plain name is written below a path. -/
theorem join_cases (p : Path) :
    p.spelling = "" ∧ p.join ⟨name⟩ = ⟨name⟩ ∨
      (∃ before, p.spelling.toList = before ++ ['/'] ∧
        (p.join ⟨name⟩).spelling.toList = before ++ '/' :: name.toList) ∨
      p.spelling ≠ "" ∧ (p.join ⟨name⟩).spelling.toList = p.spelling.toList ++ '/' :: name.toList := by
  rw [join, isAbsolute_of_isPlain hplain hslash, if_neg (by decide)]
  split
  · next h =>
    by_cases h0 : p.spelling = ""
    · exact .inl ⟨h0, by simp [h0]⟩
    · obtain ⟨before, hbefore⟩ := List.getLast?_eq_some_iff.1 (h.resolve_left h0)
      exact .inr (.inl ⟨before, hbefore, by simp [hbefore]⟩)
  · next h =>
    exact .inr (.inr ⟨fun h0 => h (.inl h0), by simp⟩)

/-- A plain name below a path is one more name. -/
theorem names_join (p : Path) : (p.join ⟨name⟩).names = p.names ++ [name] := by
  rw [names_join_of_relative (isAbsolute_of_isPlain hplain hslash), names_of_isPlain hplain hslash]

theorem isAbsolute_join (p : Path) : (p.join ⟨name⟩).isAbsolute = p.isAbsolute := by
  rcases join_cases hplain hslash p with ⟨h0, h⟩ | ⟨before, hp, h⟩ | ⟨h0, h⟩
  · rw [h, isAbsolute_of_isPlain hplain hslash]
    simp [isAbsolute, h0]
  · rw [isAbsolute, isAbsolute, h, hp]
    cases before <;> rfl
  · obtain ⟨c, cs, hc⟩ := List.exists_cons_of_ne_nil (l := p.spelling.toList) (by simpa using h0)
    rw [isAbsolute, isAbsolute, h, hc]
    rfl

theorem start_join (p : Path) : (p.join ⟨name⟩).start = p.start := by
  rw [start, start, isAbsolute_join hplain hslash, names_join hplain hslash]
  cases p.names <;> simp [hplain.2.1]

/-- A plain name below a path is one more step. -/
theorem components_join (p : Path) :
    (p.join ⟨name⟩).components = p.components ++ [.name name] := by
  rw [components, components, start_join hplain hslash, names_join hplain hslash,
    List.filterMap_append, List.append_assoc]
  simp [step?, hplain.2.1, hplain.2.2]

theorem fileName?_join (p : Path) : (p.join ⟨name⟩).fileName? = some name := by
  rw [fileName?, components_join hplain hslash, List.getLast?_concat]

end Join

end Amalgam.Path

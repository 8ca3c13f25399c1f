import CellMachine.Storage.Basic
import Mathlib.Data.List.Basic

/-!
# Where images are looked for

What the text operations on paths do to components.

* `components_join`: joining puts the names of the relative path behind the components of the base;
* `components_withExtension`: an extension changes the last component and no other, whatever slashes
  and dots are dropped at the end of the text on the way;
* `resolve_under_root`: an image is looked for under the root directory exactly when its name has a
  file name of its own or the root's file name has an extension. Otherwise the extension goes to the
  root's file name, and the image is looked for beside the root;
* `empty_name_beside_root`: the empty name does that.

The lemmas speak of lists of characters, which the pieces are cut from. `names` are the components
that come from the pieces, and `front` is the one that may stand before them.
-/

namespace CellMachine.Path

variable {l r e q : List Char} {n : String}

/-! ## Pieces -/

theorem pieces_ne_nil (l : List Char) : pieces l ≠ [] := by
  cases l with
  | nil => simp [pieces]
  | cons c rest =>
    unfold pieces
    split
    · simp
    · split <;> simp

theorem pieces_cons_slash (l : List Char) : pieces ('/' :: l) = [] :: pieces l := by
  obtain ⟨first, others, hl⟩ := List.exists_cons_of_ne_nil (pieces_ne_nil l)
  simp [pieces, hl]

theorem pieces_cons_of_ne {c : Char} (hc : c ≠ '/') {first : List Char} {others : List (List Char)}
    (hl : pieces l = first :: others) : pieces (c :: l) = (c :: first) :: others := by
  simp [pieces, hl, hc]

theorem pieces_append_slash (l r : List Char) : pieces (l ++ '/' :: r) = pieces l ++ pieces r := by
  induction l with
  | nil => rw [List.nil_append, pieces_cons_slash]; rfl
  | cons c rest ih =>
    by_cases hc : c = '/'
    · subst hc
      rw [List.cons_append, pieces_cons_slash, ih, pieces_cons_slash, List.cons_append]
    · obtain ⟨first, others, hrest⟩ := List.exists_cons_of_ne_nil (pieces_ne_nil rest)
      rw [hrest] at ih
      rw [List.cons_append, pieces_cons_of_ne hc ih, pieces_cons_of_ne hc hrest]
      rfl

theorem pieces_of_no_slash (hl : '/' ∉ l) : pieces l = [l] := by
  induction l with
  | nil => rfl
  | cons c rest ih =>
    simp only [List.mem_cons, not_or] at hl
    exact pieces_cons_of_ne (Ne.symm hl.1) (ih hl.2)

/-- A text is one piece, or it has a last slash and its last piece behind it. -/
theorem last_slash_cases (l : List Char) :
    '/' ∉ l ∨ ∃ a q, l = a ++ '/' :: q ∧ '/' ∉ q := by
  by_cases hl : '/' ∈ l.reverse
  · obtain ⟨q, a, hrev, hq⟩ := List.eq_append_cons_of_mem hl
    refine .inr ⟨a.reverse, q.reverse, ?_, by simpa using hq⟩
    simpa using congrArg List.reverse hrev
  · exact .inl (by simpa using hl)

/-- Text without slashes at the end goes to the last piece. -/
theorem pieces_append_of_no_slash {init : List (List Char)} (hl : pieces l = init ++ [q])
    (he : '/' ∉ e) : pieces (l ++ e) = init ++ [q ++ e] := by
  rcases last_slash_cases l with hone | ⟨a, p, rfl, hp⟩
  · rw [pieces_of_no_slash hone] at hl
    obtain ⟨rfl, hq⟩ : [] = init ∧ [l] = [q] := List.append_inj' hl rfl
    rw [pieces_of_no_slash (by simp [hone, he]), (List.cons.inj hq).1, List.nil_append]
  · rw [pieces_append_slash, pieces_of_no_slash hp] at hl
    obtain ⟨hinit, hq⟩ := List.append_inj' hl rfl
    obtain rfl : p = q := (List.cons.inj hq).1
    have hpe : '/' ∉ p ++ e := by simp [hp, he]
    rw [List.append_assoc, List.cons_append, pieces_append_slash, pieces_of_no_slash hpe, hinit]

/-! ## Components -/

/-- The components that stand for pieces of a path. -/
def names (l : List Char) : List Component := (pieces l).filterMap component?

/-- The component before them: the slash of an absolute path, or a dot at the front. -/
def front (l : List Char) : List Component :=
  if l.head? = some '/' then [.root]
  else if (pieces l).head? = some ['.'] then [.current]
  else []

theorem components_eq (path : String) :
    components path = front path.toList ++ names path.toList := by
  simp only [components, front, names, isAbsolute, decide_eq_true_eq]
  split
  · rfl
  · split <;> rfl

theorem component?_eq_normal :
    component? q = some (.normal n) ↔ q = n.toList ∧ q ≠ [] ∧ q ≠ ['.'] ∧ q ≠ ['.', '.'] := by
  unfold component?
  by_cases hdots : (q = [] ∨ q = ['.']) ∨ q = ['.', '.']
  · rcases hdots with (rfl | rfl) | rfl <;> simp
  · simp only [not_or] at hdots
    simp [hdots, ← String.toList_inj]

/-- The pieces of a path give names and steps to the parent, and nothing else. -/
theorem component?_cases {c : Component} (h : component? q = some c) :
    c = .parent ∨ ∃ n, c = .normal n := by
  unfold component? at h
  split at h
  · simp at h
  · split at h
    · exact .inl (Option.some.inj h).symm
    · exact .inr ⟨_, (Option.some.inj h).symm⟩

theorem names_append_slash (l r : List Char) : names (l ++ '/' :: r) = names l ++ names r := by
  simp only [names, pieces_append_slash, List.filterMap_append]

theorem front_append_slash (hl : l ≠ []) (r : List Char) : front (l ++ '/' :: r) = front l := by
  have hpiece : (pieces (l ++ '/' :: r)).head? = (pieces l).head? := by
    rw [pieces_append_slash, List.head?_append_of_ne_nil _ (pieces_ne_nil l)]
  simp only [front, List.head?_append_of_ne_nil _ hl, hpiece]

/-- **Joining** puts the names of a relative path behind the components of the base. -/
theorem components_join {base path : String} (hbase : base ≠ "") (hpath : isAbsolute path = false) :
    components (join base path) = components base ++ names path.toList := by
  have hne : base.toList ≠ [] := fun h => hbase (String.toList_eq_nil_iff.1 h)
  rw [components_eq base, join, hpath, if_neg Bool.false_ne_true, if_neg hbase]
  split
  · next hlast =>
    obtain ⟨a, ha⟩ := List.getLast?_eq_some_iff.1 hlast
    rw [components_eq, String.toList_append, ha, List.append_assoc, List.singleton_append,
      names_append_slash, names_append_slash]
    have hnil : names [] = [] := rfl
    rw [hnil, List.append_nil, ← List.append_assoc]
    -- the slash at the end of the base is the root itself when nothing is before it
    rcases a with _ | ⟨c, rest⟩
    · simp [front]
    · rw [front_append_slash (by simp), front_append_slash (by simp)]
  · have htext : (base ++ "/" ++ path).toList = base.toList ++ '/' :: path.toList := by simp
    rw [components_eq, htext, names_append_slash, front_append_slash hne, List.append_assoc]

/-! ## The end of a path -/

/-- The last piece, if it stands for something, is the last component. -/
theorem getLast?_of_pieces {init : List (List Char)} {c : Component} (hl : pieces l = init ++ [q])
    (hq : component? q = some c) : (front l ++ names l).getLast? = some c := by
  simp [names, hl, hq]

theorem getLast?_front (l : List Char) (n : String) : (front l).getLast? ≠ some (.normal n) := by
  unfold front
  split
  · simp
  · split <;> simp

theorem component?_eq_none (h : component? q = none) : q = [] ∨ q = ['.'] := by
  unfold component? at h
  split at h
  · assumption
  · split at h <;> simp at h

/-- The slashes and dots that are trimmed stand for no component, and what is left ends with the
file name. -/
theorem trimReversed_spec (h : (front r.reverse ++ names r.reverse).getLast? = some (.normal n)) :
    (front (trimReversed r).reverse ++ names (trimReversed r).reverse =
      front r.reverse ++ names r.reverse) ∧
    ∃ init q, pieces (trimReversed r).reverse = init ++ [q] ∧
      component? q = some (.normal n) := by
  have hempty : names [] = [] := rfl
  have hdot : names ['.'] = [] := rfl
  fun_induction trimReversed r with
  | case1 rest ih =>
    rw [List.reverse_cons] at h ⊢
    by_cases hrest : rest.reverse = []
    · simp [hrest, front, names, pieces, component?] at h
    · rw [names_append_slash, front_append_slash hrest, hempty, List.append_nil] at h ⊢
      exact ih h
  | case2 rest ih =>
    rw [List.reverse_cons, List.reverse_cons, List.append_assoc, List.singleton_append] at h ⊢
    by_cases hrest : rest.reverse = []
    · simp [hrest, front, names, pieces, component?] at h
    · rw [names_append_slash, front_append_slash hrest, hdot, List.append_nil] at h ⊢
      exact ih h
  | case3 other hslash hdots =>
    refine ⟨rfl, ?_⟩
    -- nothing is left to trim, so that the last piece stands for something
    obtain ⟨init, q, hpieces, hsome⟩ : ∃ init q, pieces other.reverse = init ++ [q] ∧
        component? q ≠ none := by
      rcases last_slash_cases other.reverse with hone | ⟨a, q, hq, hno⟩
      · refine ⟨[], other.reverse, pieces_of_no_slash hone, fun hnone => ?_⟩
        refine getLast?_front other.reverse n ?_
        simpa [names, pieces_of_no_slash hone, hnone] using h
      · refine ⟨pieces a, q, ?_, fun hnone => ?_⟩
        · rw [hq, pieces_append_slash, pieces_of_no_slash hno]
        have hother : other = q.reverse ++ '/' :: a.reverse := by
          simpa using congrArg List.reverse hq
        rcases component?_eq_none hnone with rfl | rfl
        · exact hslash _ hother
        · exact hdots _ hother
    obtain ⟨c, hc⟩ := Option.ne_none_iff_exists'.1 hsome
    rw [getLast?_of_pieces hpieces hc, Option.some.injEq] at h
    exact ⟨init, q, hpieces, h ▸ hc⟩

/-- Text without slashes that is put behind the file name changes the last component. -/
theorem components_append {init : List (List Char)} (hl : pieces l = init ++ [q])
    (hq : component? q = some (.normal n)) (he : '/' ∉ e) :
    front (l ++ '.' :: e) ++ names (l ++ '.' :: e) =
      (front l ++ names l).dropLast ++ [.normal (String.ofList (q ++ '.' :: e))] := by
  obtain ⟨-, hne, hdot, hdots⟩ := component?_eq_normal.1 hq
  have hpieces : pieces (l ++ '.' :: e) = init ++ [q ++ '.' :: e] :=
    pieces_append_of_no_slash hl (by simp [he])
  have hnew : component? (q ++ '.' :: e) = some (.normal (String.ofList (q ++ '.' :: e))) := by
    rw [component?_eq_normal, String.toList_ofList]
    rcases q with _ | ⟨c, _ | ⟨c', q⟩⟩ <;> simp_all
  have hl' : l ≠ [] := by
    rintro rfl
    cases init <;> simp_all [pieces]
  have hfront : front (l ++ '.' :: e) = front l := by
    simp only [front, List.head?_append_of_ne_nil _ hl', hl, hpieces]
    cases init <;> simp_all [List.append_eq_singleton_iff]
  have hnames : names (l ++ '.' :: e) =
      init.filterMap component? ++ [.normal (String.ofList (q ++ '.' :: e))] := by
    simp only [names, hpieces, List.filterMap_append, List.filterMap_cons, hnew,
      List.filterMap_nil]
  have hold : names l = init.filterMap component? ++ [.normal n] := by
    simp only [names, hl, List.filterMap_append, List.filterMap_cons, hq, List.filterMap_nil]
  rw [hfront, hnames, hold, ← List.append_assoc, ← List.append_assoc, List.dropLast_concat]

theorem fileName?_eq_some {path : String} :
    fileName? path = some n ↔ (components path).getLast? = some (.normal n) := by
  unfold fileName?
  split
  · next name hlast => simp [hlast]
  · next hnot => simpa using fun h => hnot n h

/-- **An extension changes the last component**, the file name, and no other. -/
theorem components_withExtension {path extension : String} (hname : fileName? path = some n)
    (he : '/' ∉ extension.toList) :
    components (withExtension path extension) =
      (components path).dropLast ++ [.normal (n ++ "." ++ extension)] := by
  have hlast := fileName?_eq_some.1 hname
  rw [components_eq, ← List.reverse_reverse path.toList] at hlast
  obtain ⟨hsame, init, q, hpieces, hq⟩ := trimReversed_spec hlast
  have htext : (withExtension path extension).toList =
      (trimReversed path.toList.reverse).reverse ++ '.' :: extension.toList := by
    simp [withExtension, hname, trimmed]
  have hnew : String.ofList (q ++ '.' :: extension.toList) = n ++ "." ++ extension := by
    rw [(component?_eq_normal.1 hq).1, ← String.toList_inj]
    simp
  rw [components_eq, htext, components_append hpieces hq he, hsame, List.reverse_reverse,
    ← components_eq, hnew]

/-! ## Looking for an image -/

/-- The name of an image's file: with the usual extension when it has none. -/
def imageName (name : String) : String :=
  match extension? name with
  | some _ => name
  | none => name ++ "." ++ Storage.imageExtension

theorem imageName_eq_self {name : String} : imageName name = name ↔ (extension? name).isSome := by
  unfold imageName
  cases extension? name with
  | some e => simp
  | none =>
    simp only [Option.isSome_none, Bool.false_eq_true, iff_false]
    intro h
    have hlength := congrArg String.length h
    have hdot : ".".length = 1 := by decide
    rw [String.length_append, String.length_append, hdot] at hlength
    omega

/-- Looking for an image changes the last component of the joined path to an image's name. -/
theorem components_resolve {root path name : String} (h : fileName? (join root path) = some name) :
    components (Storage.resolve root path) =
      (components (join root path)).dropLast ++ [.normal (imageName name)] := by
  unfold Storage.resolve
  -- a variable from here on, so that no step evaluates the joined text
  generalize join root path = full at h ⊢
  have hext : '/' ∉ Storage.imageExtension.toList := by decide
  have hnew := components_withExtension h hext
  dsimp only
  rw [h, Option.bind_some]
  unfold imageName
  cases extension? name with
  | some e =>
    obtain ⟨steps, hsteps⟩ := List.getLast?_eq_some_iff.1 (fileName?_eq_some.1 h)
    simp only [hsteps, List.dropLast_concat]
  | none => exact hnew

/-- A path without steps to the parent has a file name as soon as it has any name, and that is the
last one. -/
theorem names_of_no_parent {path : String} (hup : .parent ∉ components path) :
    (fileName? path = none ∧ names path.toList = []) ∨
      ∃ steps name, fileName? path = some name ∧
        names path.toList = steps ++ [.normal name] := by
  rw [components_eq] at hup
  rcases List.eq_nil_or_concat (names path.toList) with hnone | ⟨steps, c, hsome⟩
  · refine .inl ⟨?_, hnone⟩
    rw [Option.eq_none_iff_forall_ne_some]
    intro n hn
    rw [fileName?_eq_some, components_eq, hnone, List.append_nil] at hn
    exact getLast?_front _ _ hn
  · rw [List.concat_eq_append] at hsome
    obtain ⟨q, -, hq⟩ := List.mem_filterMap.1 (hsome ▸ List.mem_concat_self : c ∈ names path.toList)
    rcases component?_cases hq with rfl | ⟨n, rfl⟩
    · simp [hsome] at hup
    · refine .inr ⟨steps, n, ?_, hsome⟩
      rw [fileName?_eq_some, components_eq, hsome]
      simp

/-- **When an image is looked for under the root.** Under a root with a file name, and by a relative
name without steps to the parent, an image is looked for in the directory exactly when its name has
a file name, or the root's own has an extension. When the name has no file name, as the empty name
and the dot, the extension goes to the file name of the root. -/
theorem resolve_under_root {root path name : String} (hroot : fileName? root = some name)
    (hpath : isAbsolute path = false) (hup : .parent ∉ components path) :
    (components root <+: components (Storage.resolve root path) ↔
      (fileName? path).isSome ∨ (extension? name).isSome) ∧
    (fileName? path = none → components (Storage.resolve root path) =
      (components root).dropLast ++ [.normal (imageName name)]) := by
  obtain ⟨dirs, hdirs⟩ := List.getLast?_eq_some_iff.1 (fileName?_eq_some.1 hroot)
  have hne : root ≠ "" := by
    rintro rfl
    have hnone : fileName? "" = none := by decide
    exact absurd (hnone.symm.trans hroot) nofun
  have hjoin := components_join hne hpath
  rcases names_of_no_parent hup with ⟨hnone, hnames⟩ | ⟨steps, n, hsome, hnames⟩
  · rw [hnames, List.append_nil] at hjoin
    have hfull : fileName? (join root path) = some name := by
      rw [fileName?_eq_some, hjoin, hdirs]
      simp
    have hresolve := components_resolve hfull
    rw [hjoin] at hresolve
    refine ⟨?_, fun _ => hresolve⟩
    rw [hresolve, hdirs, List.dropLast_concat, List.prefix_append_right_inj, hnone,
      ← imageName_eq_self]
    simp [eq_comm]
  · have hfull : fileName? (join root path) = some n := by
      rw [fileName?_eq_some, hjoin, hnames]
      simp
    have hresolve := components_resolve hfull
    rw [hjoin, hnames, ← List.append_assoc, List.dropLast_concat, List.append_assoc] at hresolve
    refine ⟨?_, fun hnone => absurd (hsome.symm.trans hnone) nofun⟩
    simp [hresolve, hsome]

theorem resolve_under_root_nested :
    (fileName? "/scripts" = some "scripts" ∧ isAbsolute "./dir.d/main" = false ∧
      .parent ∉ components "./dir.d/main" ∧ (fileName? "./dir.d/main").isSome) ∧
    components "/scripts" <+: components (Storage.resolve "/scripts" "./dir.d/main") := by
  have h : fileName? "/scripts" = some "scripts" ∧ isAbsolute "./dir.d/main" = false ∧
      .parent ∉ components "./dir.d/main" ∧ (fileName? "./dir.d/main").isSome := by decide
  obtain ⟨hroot, hpath, hup, hname⟩ := h
  exact ⟨⟨hroot, hpath, hup, hname⟩, (resolve_under_root hroot hpath hup).1.2 (.inl hname)⟩

/-- **The empty name and the dot leave the root directory**: they lead to a file beside it. -/
theorem empty_name_beside_root :
    fileName? "/scripts" = some "scripts" ∧
    (∀ path ∈ ["", "."], isAbsolute path = false ∧ .parent ∉ components path ∧
      components (Storage.resolve "/scripts" path) = [.root, .normal "scripts.brm"] ∧
      ¬ components "/scripts" <+: components (Storage.resolve "/scripts" path)) := by
  decide

end CellMachine.Path

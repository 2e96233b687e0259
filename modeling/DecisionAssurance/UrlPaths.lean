import DecisionAssurance.WrittenPieces
import DecisionAssurance.UrlPolicy

/-!
# Normal paths

`normpath` keeps the names of an absolute path, so that the path of a canonical URL is its own
canonical path.
-/

namespace DecisionAssurance.Research

/-! ## The steps of `normpath` -/

def slashesOf (path : List Char) : ℕ :=
  if ['/', '/', '/'].isPrefixOf path then 1
  else if ['/', '/'].isPrefixOf path then 2
  else if ['/'].isPrefixOf path then 1
  else 0

def keepPart (slashes : ℕ) (kept : List (List Char)) (part : List Char) : List (List Char) :=
  if part = [] ∨ part = ['.'] then kept
  else if part ≠ ['.', '.'] ∨ (slashes = 0 ∧ kept = []) ∨ kept.getLast? = some ['.', '.'] then
    kept ++ [part]
  else kept.dropLast

/-- Names after slashes. -/
def renderPath (slashes : ℕ) (names : List (List Char)) : List Char :=
  List.replicate slashes '/' ++ ['/'].intercalate names

theorem normpath_eq (path : List Char) : normpath path =
    let result := renderPath (slashesOf path)
      ((path.splitOn '/').foldl (keepPart (slashesOf path)) [])
    if result.isEmpty then ['.'] else result := rfl

/-- A part that `normpath` keeps. -/
structure IsName (part : List Char) : Prop where
  nonempty : part ≠ []
  dot : part ≠ ['.']
  dots : part ≠ ['.', '.']
  slash : '/' ∉ part

section Names

variable {slashes : ℕ} {kept names pieces : List (List Char)} {part path : List Char} {c : Char}

theorem keepPart_name (h : IsName part) : keepPart slashes kept part = kept ++ [part] := by
  rw [keepPart, if_neg (by simp [h.nonempty, h.dot]), if_pos (Or.inl h.dots)]

theorem keepPart_nil (slashes : ℕ) (kept : List (List Char)) :
    keepPart slashes kept [] = kept := if_pos (Or.inl rfl)

theorem foldl_names (h : ∀ part ∈ names, IsName part) :
    names.foldl (keepPart slashes) kept = kept ++ names := by
  induction names generalizing kept with
  | nil => rw [List.foldl_nil, List.append_nil]
  | cons part names ih =>
    obtain ⟨hpart, hnames⟩ := List.forall_mem_cons.mp h
    rw [List.foldl_cons, keepPart_name hpart, ih hnames, List.append_assoc, List.singleton_append]

/-- After a slash only names are kept, and only parts of the path. -/
theorem keepPart_names (hslashes : slashes ≠ 0) (hslash : '/' ∉ part)
    (h : ∀ name ∈ kept, IsName name) : ∀ name ∈ keepPart slashes kept part,
      IsName name ∧ (name ∈ kept ∨ name = part) := by
  intro name hname
  unfold keepPart at hname
  split_ifs at hname with hskip hkeep
  · exact ⟨h name hname, Or.inl hname⟩
  · rcases List.mem_append.mp hname with hname | hname
    · exact ⟨h name hname, Or.inl hname⟩
    · obtain rfl := List.mem_singleton.mp hname
      rw [not_or] at hskip
      refine ⟨⟨hskip.1, hskip.2, ?_, hslash⟩, Or.inr rfl⟩
      rcases hkeep with hdots | ⟨hzero, -⟩ | hlast
      · exact hdots
      · exact absurd hzero hslashes
      · exact absurd rfl (h _ (List.mem_of_getLast? hlast)).dots
  · have hmem := List.dropLast_subset kept hname
    exact ⟨h name hmem, Or.inl hmem⟩

theorem foldl_keepPart (hslashes : slashes ≠ 0) (hpieces : ∀ part ∈ pieces, '/' ∉ part)
    (h : ∀ name ∈ kept, IsName name) : ∀ name ∈ pieces.foldl (keepPart slashes) kept,
      IsName name ∧ (name ∈ kept ∨ name ∈ pieces) := by
  induction pieces generalizing kept with
  | nil => exact fun name hname => ⟨h name hname, Or.inl hname⟩
  | cons part pieces ih =>
    obtain ⟨hpart, hrest⟩ := List.forall_mem_cons.mp hpieces
    have hstep := keepPart_names hslashes hpart h
    intro name hname
    obtain ⟨hisName, hfrom⟩ := ih hrest (fun name hname => (hstep name hname).1) name hname
    refine ⟨hisName, ?_⟩
    rcases hfrom with hkept | hpiece
    · rcases (hstep name hkept).2 with hkept | rfl
      · exact Or.inl hkept
      · exact Or.inr List.mem_cons_self
    · exact Or.inr (List.mem_cons_of_mem _ hpiece)

/-! ## Absolute paths -/

theorem slashesOf_absolute (path : List Char) :
    slashesOf ('/' :: path) = 1 ∨ slashesOf ('/' :: path) = 2 := by
  unfold slashesOf
  split_ifs with h₁ h₂ h₃
  · exact Or.inl rfl
  · exact Or.inr rfl
  · exact Or.inl rfl
  · simp at h₃

theorem renderPath_ne_nil (hslashes : slashes ≠ 0) : renderPath slashes names ≠ [] := by
  cases slashes with
  | zero => exact absurd rfl hslashes
  | succ n => simp [renderPath, List.replicate_succ]

/-- An absolute path is made of names. -/
theorem normpath_absolute (path : List Char) : ∃ slashes names,
    (slashes = 1 ∨ slashes = 2) ∧ (∀ name ∈ names, IsName name) ∧
      (∀ name ∈ names, ∀ c ∈ name, c ∈ '/' :: path) ∧
      normpath ('/' :: path) = renderPath slashes names := by
  have hslashes := slashesOf_absolute path
  have hne : slashesOf ('/' :: path) ≠ 0 := by omega
  have hpieces : ∀ part ∈ ('/' :: path).splitOn '/', '/' ∉ part :=
    fun part hpart hslash => (TextPieces.mem_splitOn hpart hslash).2 rfl
  have hempty : ∀ name ∈ ([] : List (List Char)), IsName name := nofun
  have hnames := foldl_keepPart hne hpieces hempty
  refine ⟨_, _, hslashes, fun name hname => (hnames name hname).1, ?_, ?_⟩
  · intro name hname c hc
    rcases (hnames name hname).2 with hnone | hpiece
    · cases hnone
    · exact (TextPieces.mem_splitOn hpiece hc).1
  · rw [normpath_eq]
    exact if_neg (by simpa using renderPath_ne_nil hne)

/-! ## Rendered paths -/

/-- What may follow a rendered path: a slash after the last name. -/
def IsClosing (names : List (List Char)) (tail : List Char) : Prop :=
  tail = [] ∨ tail = ['/'] ∧ names ≠ []

variable {tail : List Char}

theorem head?_names (hnames : ∀ name ∈ names, IsName name) (htail : IsClosing names tail) :
    (['/'].intercalate names ++ tail).head? ≠ some '/' := by
  cases names with
  | nil =>
    rcases htail with rfl | ⟨-, hne⟩
    · exact nofun
    · exact absurd rfl hne
  | cons name names =>
    have hname := hnames name List.mem_cons_self
    obtain ⟨c, rest, rfl⟩ := List.exists_cons_of_ne_nil hname.nonempty
    have hne : c ≠ '/' := fun h => hname.slash (h ▸ List.mem_cons_self)
    cases names with
    | nil => simpa [List.intercalate_singleton] using hne
    | cons other names => simpa [List.intercalate_cons_cons] using hne

theorem slashesOf_render (hslashes : slashes = 1 ∨ slashes = 2)
    (hnames : ∀ name ∈ names, IsName name) (htail : IsClosing names tail) :
    slashesOf (renderPath slashes names ++ tail) = slashes := by
  have hhead := head?_names hnames htail
  rw [renderPath, List.append_assoc]
  generalize ['/'].intercalate names ++ tail = rest at hhead
  rcases hslashes with rfl | rfl
  · cases rest with
    | nil => rfl
    | cons c rest =>
      have hne : '/' ≠ c := fun h => hhead (by rw [List.head?_cons, h])
      simp [slashesOf, hne]
  · cases rest with
    | nil => rfl
    | cons c rest =>
      have hne : '/' ≠ c := fun h => hhead (by rw [List.head?_cons, h])
      simp [slashesOf, List.replicate_succ, hne]

theorem foldl_render (hslashes : slashes = 1 ∨ slashes = 2)
    (hnames : ∀ name ∈ names, IsName name) (htail : IsClosing names tail) :
    ((renderPath slashes names ++ tail).splitOn '/').foldl (keepPart slashes) [] = names := by
  have hrest : ((['/'].intercalate names ++ tail).splitOn '/').foldl (keepPart slashes) [] =
      names := by
    by_cases hempty : names = []
    · rcases htail with rfl | ⟨-, hne⟩
      · rw [hempty]
        exact keepPart_nil slashes []
      · exact absurd hempty hne
    · have hsplit : (['/'].intercalate names).splitOn '/' = names :=
        List.splitOn_intercalate '/' (fun name hname => (hnames name hname).slash) hempty
      rcases htail with rfl | ⟨rfl, -⟩
      · rw [List.append_nil, hsplit, foldl_names hnames, List.nil_append]
      · rw [List.splitOn_append_cons_self, hsplit, List.foldl_append, foldl_names hnames,
          List.nil_append]
        exact keepPart_nil slashes names
  have hslash : ∀ rest : List Char, ('/' :: rest).splitOn '/' = [] :: rest.splitOn '/' :=
    fun rest => List.splitOn_append_cons_self [] rest
  rw [renderPath, List.append_assoc]
  rcases hslashes with rfl | rfl
  · rw [List.replicate_one, List.singleton_append, hslash, List.foldl_cons, keepPart_nil, hrest]
  · rw [show List.replicate 2 '/' = ['/', '/'] from rfl, List.cons_append, List.singleton_append,
      hslash, hslash, List.foldl_cons, List.foldl_cons, keepPart_nil, keepPart_nil, hrest]

/-- A rendered path is normal. -/
theorem normpath_render (hslashes : slashes = 1 ∨ slashes = 2)
    (hnames : ∀ name ∈ names, IsName name) (htail : IsClosing names tail) :
    normpath (renderPath slashes names ++ tail) = renderPath slashes names := by
  have hne : slashes ≠ 0 := by omega
  rw [normpath_eq, slashesOf_render hslashes hnames htail, foldl_render hslashes hnames htail]
  exact if_neg (by simpa using renderPath_ne_nil hne)

end Names

/-! ## Canonical paths -/

namespace PublicUrlPolicy

variable {path : String}

/-- The path of a URL with an authority is empty or absolute. -/
def Absolute (path : String) : Prop := path.toList = [] ∨ path.toList.head? = some '/'

/-- A canonical path is rendered, with the slash that stood after it. -/
theorem canonicalPath_rendered (h : Absolute path) : ∃ slashes names,
    (slashes = 1 ∨ slashes = 2) ∧ (∀ name ∈ names, IsName name) ∧
      (∀ name ∈ names, ∀ c ∈ name, c = '/' ∨ c ∈ path.toList) ∧
      canonicalPath path = renderPath slashes names ++
        if endsWith "/" path && (renderPath slashes names).getLast? ≠ some '/' then ['/']
        else [] := by
  obtain ⟨rest, hpath, hmem⟩ : ∃ rest,
      (if path.isEmpty then ['/'] else path.toList) = '/' :: rest ∧
        ∀ c ∈ '/' :: rest, c = '/' ∨ c ∈ path.toList := by
    rcases h with hnil | hhead
    · have hempty : path.isEmpty = true := by simpa using hnil
      exact ⟨[], if_pos hempty, fun c hc => Or.inl (List.mem_singleton.mp hc)⟩
    · obtain ⟨rest, hrest⟩ := List.head?_eq_some_iff.mp hhead
      have hempty : ¬ path.isEmpty = true := by
        intro hempty
        have hnil : path.toList = [] := by simpa using hempty
        rw [hnil] at hrest
        cases hrest
      exact ⟨rest, by rw [if_neg hempty, hrest], fun c hc => Or.inr (hrest ▸ hc)⟩
  obtain ⟨slashes, names, hslashes, hnames, hchars, hnormal⟩ := normpath_absolute rest
  refine ⟨slashes, names, hslashes, hnames, fun name hname c hc => hmem c (hchars name hname c hc),
    ?_⟩
  have hhead : ∀ tail, (renderPath slashes names ++ tail).head? = some '/' := by
    intro tail
    rcases hslashes with rfl | rfl <;> rfl
  have hclosed : ∀ p : Prop, [Decidable p] →
      (if p then renderPath slashes names ++ ['/'] else renderPath slashes names) =
        renderPath slashes names ++ if p then ['/'] else [] := by
    intro p _
    split_ifs
    · rfl
    · rw [List.append_nil]
  unfold canonicalPath
  simp only [hpath, hnormal, hclosed, hhead, if_true]

theorem head?_rooted (cs : List Char) :
    (if cs.head? = some '/' then cs else '/' :: cs).head? = some '/' := by
  split_ifs with hhead
  · exact hhead
  · rfl

theorem head?_canonicalPath (path : String) : (canonicalPath path).head? = some '/' :=
  head?_rooted _

theorem mem_canonicalPath {c : Char} (h : Absolute path) (hc : c ∈ canonicalPath path) :
    c = '/' ∨ c ∈ path.toList := by
  obtain ⟨slashes, names, -, -, hchars, hpath⟩ := canonicalPath_rendered h
  rw [hpath, renderPath, List.mem_append, List.mem_append] at hc
  rcases hc with (hc | hc) | hc
  · exact Or.inl (List.eq_of_mem_replicate hc)
  · rcases TextPieces.mem_intercalate hc with hc | ⟨name, hname, hc⟩
    · exact Or.inl (List.mem_singleton.mp hc)
    · exact hchars name hname c hc
  · split_ifs at hc
    · exact Or.inl (List.mem_singleton.mp hc)
    · cases hc

theorem endsWith_slash (cs : List Char) :
    endsWith "/" (String.ofList cs) = decide (cs.getLast? = some '/') := by
  cases cs using List.reverseRecOn with
  | nil => rfl
  | append_singleton init c =>
    have htext : (String.ofList (init ++ [c])).toList = init ++ [c] := String.toList_ofList
    rw [endsWith, htext, List.getLast?_concat, Bool.eq_iff_iff, List.isSuffixOf_iff_suffix,
      decide_eq_true_eq, Option.some_inj]
    constructor
    · rintro ⟨front, hfront⟩
      exact (List.singleton_inj.mp (List.append_inj' hfront rfl).2).symm
    · rintro rfl
      exact List.suffix_append init ['/']

/-- A rendered path is its own canonical path. -/
theorem canonicalPath_render {slashes : ℕ} {names : List (List Char)} {tail : List Char}
    (hslashes : slashes = 1 ∨ slashes = 2) (hnames : ∀ name ∈ names, IsName name)
    (htail : tail = [] ∨ tail = ['/'] ∧ (renderPath slashes names).getLast? ≠ some '/') :
    canonicalPath (String.ofList (renderPath slashes names ++ tail)) =
      renderPath slashes names ++ tail := by
  have hclosing : IsClosing names tail := by
    rcases htail with rfl | ⟨rfl, hlast⟩
    · exact Or.inl rfl
    · refine Or.inr ⟨rfl, ?_⟩
      rintro rfl
      rcases hslashes with rfl | rfl
      · exact hlast rfl
      · exact hlast rfl
  have hne : renderPath slashes names ++ tail ≠ [] := by
    have hrender := @renderPath_ne_nil slashes names (by omega)
    simp [hrender]
  have hempty : ¬ (String.ofList (renderPath slashes names ++ tail)).isEmpty = true := by
    simpa using hne
  have hhead : (renderPath slashes names ++ tail).head? = some '/' := by
    rcases hslashes with rfl | rfl
    · rfl
    · rfl
  unfold canonicalPath
  simp only [if_neg hempty, String.toList_ofList, normpath_render hslashes hnames hclosing]
  rcases htail with rfl | ⟨rfl, hlast⟩
  · rw [List.append_nil] at hhead
    have hopen : (decide ((renderPath slashes names).getLast? = some '/') &&
        decide ((renderPath slashes names).getLast? ≠ some '/')) = false := by
      rw [Bool.and_eq_false_iff, decide_eq_false_iff_not, decide_eq_false_iff_not]
      exact (em _).elim (fun h => Or.inr (not_not.mpr h)) Or.inl
    simp only [endsWith_slash, List.append_nil, hopen, Bool.false_eq_true, if_false, hhead, if_true]
  · have hclosed : (decide ((renderPath slashes names ++ ['/']).getLast? = some '/') &&
        decide ((renderPath slashes names).getLast? ≠ some '/')) = true := by
      rw [Bool.and_eq_true, decide_eq_true_eq, decide_eq_true_eq]
      exact ⟨List.getLast?_concat, hlast⟩
    simp only [endsWith_slash, hclosed, hhead, if_true]

theorem canonicalPath_canonicalPath (h : Absolute path) :
    canonicalPath (String.ofList (canonicalPath path)) = canonicalPath path := by
  obtain ⟨slashes, names, hslashes, hnames, -, hpath⟩ := canonicalPath_rendered h
  rw [hpath]
  apply canonicalPath_render hslashes hnames
  split_ifs with hcond
  · rw [Bool.and_eq_true, decide_eq_true_eq] at hcond
    exact Or.inr ⟨rfl, hcond.2⟩
  · exact Or.inl rfl

end PublicUrlPolicy

end DecisionAssurance.Research

import Mathlib.Data.List.TakeWhile
import RegisterMachine.CommandLine.Command

namespace RegisterMachine

namespace PathName

/-- What a path is made of. Two paths are the same if they are made of the same. -/
inductive Component
  | root
  | here
  | parent
  | normal (name : List Char)
  deriving DecidableEq, Repr

/-- What a piece between slashes stands for. Empty pieces and single dots stand for nothing. -/
def Component.ofPiece? : List Char → Option Component
  | [] => none
  | ['.'] => none
  | ['.', '.'] => some .parent
  | name => some (.normal name)

/-- What a path begins with: a slash, or a single dot, which counts in this place only. -/
def opening (path : PathName) : List Component :=
  if path.head? = some '/' then [.root]
  else if path.takeWhile (· ≠ '/') = ['.'] then [.here]
  else []

/-- What the pieces between the slashes stand for. -/
def pieces (path : PathName) : List Component := (path.splitOn '/').filterMap Component.ofPiece?

def components (path : PathName) : List Component := opening path ++ pieces path

/-- The stem of a file name and its extension, which follows the last dot. A dot at the very start does not count. -/
inductive Stem (name : List Char) : List Char → Option (List Char) → Prop
  | whole : '.' ∉ name.tail → Stem name name none
  | dotted {stem extension : List Char} : name = stem ++ '.' :: extension → stem ≠ [] → '.' ∉ extension →
      Stem name stem (some extension)

/-- A piece that names a file. -/
structure IsName (name : List Char) : Prop where
  slashless : '/' ∉ name
  normal : Component.ofPiece? name = some (.normal name)

/-- What stands before the last name of a path: nothing, or it ends in a slash. -/
def AtSlash (directory : List Char) : Prop := directory = [] ∨ ∃ front, directory = front ++ ['/']

/-- What may follow the last name of a path: slashes, with single dots behind some. -/
inductive Trailing : List Char → Prop
  | nil : Trailing []
  | slash {tail : List Char} : Trailing tail → Trailing (tail ++ ['/'])
  | dot {tail : List Char} : Trailing tail → Trailing (tail ++ ['/', '.'])

section Pieces

variable {front back piece directory name tail : List Char} {x : Component}

theorem ofPiece?_eq_normal (h : name ≠ []) (h1 : name ≠ ['.']) (h2 : name ≠ ['.', '.']) :
    Component.ofPiece? name = some (.normal name) := by
  unfold Component.ofPiece?
  split
  next => exact (h rfl).elim
  next => exact (h1 rfl).elim
  next => exact (h2 rfl).elim
  next => rfl

theorem pieces_append (front back : List Char) : pieces (front ++ '/' :: back) = pieces front ++ pieces back := by
  unfold pieces
  rw [List.splitOn_eq_splitOnP, List.splitOnP_append_cons front back (by decide), List.filterMap_append]
  rfl

theorem pieces_of_slashless (h : '/' ∉ piece) : pieces piece = (Component.ofPiece? piece).toList := by
  rw [pieces, List.splitOn_eq_singleton h]
  cases hp : Component.ofPiece? piece <;> simp [hp]

theorem opening_append (front back : List Char) : opening (front ++ '/' :: back) = opening (front ++ ['/']) := by
  have hhead : (front ++ '/' :: back).head? = (front ++ ['/']).head? := by cases front <;> rfl
  have htake : (front ++ '/' :: back).takeWhile (· ≠ '/') = (front ++ ['/']).takeWhile (· ≠ '/') := by
    rw [List.takeWhile_append, List.takeWhile_append]
    rfl
  rw [opening, opening, hhead, htake]

theorem components_append (front back : List Char) :
    components (front ++ '/' :: back) = components (front ++ ['/']) ++ pieces back := by
  have hnone : pieces [] = [] := by decide
  rw [components, components, opening_append, pieces_append, pieces_append, hnone, List.append_nil, List.append_assoc]

theorem pieces_trailing (h : Trailing tail) (front : List Char) : pieces (front ++ tail) = pieces front := by
  induction h with
  | nil => rw [List.append_nil]
  | slash _ ih =>
    have hnone : pieces [] = [] := by decide
    rw [← List.append_assoc, pieces_append, hnone, List.append_nil, ih]
  | dot _ ih =>
    have hnone : pieces ['.'] = [] := by decide
    rw [← List.append_assoc, pieces_append, hnone, List.append_nil, ih]

theorem Trailing.slash_or_nil (h : Trailing tail) : tail = [] ∨ ∃ rest, tail = '/' :: rest := by
  induction h with
  | nil => exact .inl rfl
  | slash _ ih =>
    rcases ih with rfl | ⟨rest, rfl⟩
    · exact .inr ⟨[], rfl⟩
    · exact .inr ⟨_, rfl⟩
  | dot _ ih =>
    rcases ih with rfl | ⟨rest, rfl⟩
    · exact .inr ⟨['.'], rfl⟩
    · exact .inr ⟨_, rfl⟩

theorem takeWhile_slashless (hp : '/' ∉ piece) (hb : back = [] ∨ ∃ rest, back = '/' :: rest) :
    (piece ++ back).takeWhile (· ≠ '/') = piece := by
  have hall : ∀ c ∈ piece, decide (c ≠ '/') = true := by
    intro c hc
    rw [decide_eq_true_eq]
    rintro rfl
    exact hp hc
  rw [List.takeWhile_append_of_pos hall]
  rcases hb with rfl | ⟨rest, rfl⟩ <;> simp

theorem dropWhile_slashless (hp : '/' ∉ piece) (hb : back = [] ∨ ∃ rest, back = '/' :: rest) :
    (piece ++ back).dropWhile (· ≠ '/') = back := by
  have hsplit := List.takeWhile_append_dropWhile (p := fun c => decide (c ≠ '/')) (l := piece ++ back)
  rw [takeWhile_slashless hp hb] at hsplit
  exact List.append_cancel_left hsplit

/-- The last piece of a path that stands for anything is its last component. -/
theorem components_of_piece (hd : AtSlash directory) (hp : '/' ∉ piece) (hx : Component.ofPiece? piece = some x)
    (ht : Trailing tail) : components (directory ++ piece ++ tail) = components directory ++ [x] := by
  have hpiece : pieces (piece ++ tail) = [x] := by
    rw [pieces_trailing ht, pieces_of_slashless hp, hx]
    rfl
  rcases hd with rfl | ⟨front, rfl⟩
  · have hhead : (piece ++ tail).head? ≠ some '/' := by
      cases piece with
      | nil => cases hx
      | cons c piece =>
        rintro hc
        cases hc
        exact hp List.mem_cons_self
    have hdot : piece ≠ ['.'] := by
      rintro rfl
      cases hx
    have hopen : opening (piece ++ tail) = [] := by
      rw [opening, if_neg hhead, takeWhile_slashless hp ht.slash_or_nil, if_neg hdot]
    rw [List.nil_append, components, hopen, hpiece]
    rfl
  · rw [List.append_assoc, List.append_assoc]
    exact (components_append front (piece ++ tail)).trans (congrArg _ hpiece)

theorem components_of_last (hd : AtSlash directory) (hp : '/' ∉ piece) (hx : Component.ofPiece? piece = some x) :
    components (directory ++ piece) = components directory ++ [x] := by
  have h := components_of_piece hd hp hx .nil
  rwa [List.append_nil] at h

end Pieces

section Splits

variable {directory name tail : List Char} {path : PathName}

theorem splitReversed?_trailing (h : Trailing tail) (cs : List Char) :
    splitReversed? (tail.reverse ++ cs) = splitReversed? cs := by
  induction h with
  | nil => rfl
  | slash _ ih =>
    rw [List.reverse_append, List.append_assoc]
    exact ih
  | dot _ ih =>
    rw [List.reverse_append, List.append_assoc]
    exact ih

theorem IsName.ne (h : IsName name) : name ≠ [] ∧ name ≠ ['.'] ∧ name ≠ ['.', '.'] := by
  refine ⟨?_, ?_, ?_⟩ <;>
    rintro rfl <;>
    cases h.normal

theorem AtSlash.reverse (h : AtSlash directory) : directory.reverse = [] ∨ ∃ rest, directory.reverse = '/' :: rest := by
  rcases h with rfl | ⟨front, rfl⟩
  · exact .inl rfl
  · exact .inr ⟨front.reverse, by simp⟩

/-- A piece that nothing follows is a name unless it is two dots. -/
theorem splitReversed?_of_slashless {reversed back : List Char} (hs : '/' ∉ reversed) (hne : reversed ≠ [])
    (hdot : reversed ≠ ['.']) (hb : back = [] ∨ ∃ rest, back = '/' :: rest) :
    splitReversed? (reversed ++ back) = if reversed = ['.', '.'] then none else some (reversed, back) := by
  obtain ⟨c, more, rfl⟩ := List.exists_cons_of_ne_nil hne
  rw [splitReversed?]
  · simp only [takeWhile_slashless hs hb, dropWhile_slashless hs hb, hne, hdot, false_or]
  · intro rest he
    obtain ⟨rfl, -⟩ := List.cons.inj he
    exact hs List.mem_cons_self
  · intro rest he
    obtain ⟨rfl, hmore⟩ := List.cons.inj he
    cases more with
    | nil => exact hdot rfl
    | cons d more =>
      obtain ⟨rfl, -⟩ := List.cons.inj hmore
      exact hs (List.mem_cons_of_mem _ List.mem_cons_self)

theorem split?_named (hd : AtSlash directory) (hn : IsName name) (ht : Trailing tail) :
    split? (directory ++ name ++ tail) = some (directory, name) := by
  obtain ⟨hne, hdot, hdots⟩ := hn.ne
  have hrev : splitReversed? (name.reverse ++ directory.reverse) = some (name.reverse, directory.reverse) := by
    rw [splitReversed?_of_slashless (by simpa using hn.slashless) (by simpa using hne)
      (by simpa [List.reverse_eq_iff] using hdot) hd.reverse, if_neg (by simpa [List.reverse_eq_iff] using hdots)]
  rw [split?, List.reverse_append, splitReversed?_trailing ht, List.reverse_append, hrev]
  simp

theorem split?_parent (hd : AtSlash directory) : split? (directory ++ ['.', '.']) = none := by
  have hrev : splitReversed? (['.', '.'] ++ directory.reverse) = none := by
    rw [splitReversed?_of_slashless (by decide) (by decide) (by decide) hd.reverse, if_pos rfl]
  rw [split?, List.reverse_append]
  exact congrArg _ hrev

theorem getLast?_pieces {piece : List Char} {x : Component} (hd : AtSlash directory) (hp : '/' ∉ piece)
    (hx : Component.ofPiece? piece = some x) : (pieces (directory ++ piece)).getLast? = some x := by
  have hpiece : pieces piece = [x] := by
    rw [pieces_of_slashless hp, hx]
    rfl
  rcases hd with rfl | ⟨front, rfl⟩
  · rw [List.nil_append, hpiece]
    rfl
  · rw [List.append_assoc, List.singleton_append, pieces_append, hpiece, List.getLast?_concat]

theorem dropWhile_slash (cs : List Char) :
    cs.dropWhile (· ≠ '/') = [] ∨ ∃ rest, cs.dropWhile (· ≠ '/') = '/' :: rest := by
  cases hd : cs.dropWhile (· ≠ '/') with
  | nil => exact .inl rfl
  | cons c rest =>
    have hc := List.head_dropWhile_not (fun c => decide (c ≠ '/')) (l := cs) (by rw [hd]; exact List.cons_ne_nil _ _)
    simp only [hd, List.head_cons, decide_eq_false_iff_not, not_not] at hc
    exact .inr ⟨rest, by rw [hc]⟩

theorem atSlash_reverse {back : List Char} (h : back = [] ∨ ∃ rest, back = '/' :: rest) : AtSlash back.reverse := by
  rcases h with rfl | ⟨rest, rfl⟩
  · exact .inl rfl
  · exact .inr ⟨rest.reverse, List.reverse_cons⟩

/-- A path whose last piece that stands for anything is a name has what stands before and behind it. -/
theorem exists_name (reversed : List Char) (h : (pieces reversed.reverse).getLast? = some (.normal name)) :
    ∃ directory tail, reversed.reverse = directory ++ name ++ tail ∧ AtSlash directory ∧ IsName name ∧
      Trailing tail := by
  fun_induction splitReversed? reversed with
  | case1 rest ih =>
    have hslash : Trailing ['/'] := .slash .nil
    rw [List.reverse_cons, pieces_trailing hslash] at h
    obtain ⟨directory, tail, he, hd, hn, ht⟩ := ih h
    exact ⟨directory, tail ++ ['/'], by simp [he], hd, hn, ht.slash⟩
  | case2 rest ih =>
    have hdot : Trailing ['/', '.'] := .dot .nil
    have hrev : ('.' :: '/' :: rest).reverse = rest.reverse ++ ['/', '.'] := by simp
    rw [hrev, pieces_trailing hdot] at h
    obtain ⟨directory, tail, he, hd, hn, ht⟩ := ih h
    exact ⟨directory, tail ++ ['/', '.'], by simp [he], hd, hn, ht.dot⟩
  | case3 cs hslash hdot piece hp =>
    have hsplit : piece ++ cs.dropWhile (· ≠ '/') = cs := List.takeWhile_append_dropWhile
    have hback := dropWhile_slash cs
    -- An empty piece or a dot would have been skipped, were there more; two dots are no name.
    rcases hp with hp | hp | hp
    · rw [hp, List.nil_append] at hsplit
      rcases hback with hb | ⟨rest, hb⟩
      · rw [← hsplit, hb] at h
        cases h
      · exact (hslash rest (hsplit.symm.trans hb)).elim
    · rw [hp] at hsplit
      rcases hback with hb | ⟨rest, hb⟩
      · rw [← hsplit, hb] at h
        cases h
      · exact (hdot rest (by rw [← hsplit, hb]; rfl)).elim
    · rw [← hsplit, hp, List.reverse_append, getLast?_pieces (atSlash_reverse hback) (by decide) rfl] at h
      cases h
  | case4 cs hslash hdot piece hp =>
    have hsplit : piece ++ cs.dropWhile (· ≠ '/') = cs := List.takeWhile_append_dropWhile
    have hd := atSlash_reverse (dropWhile_slash cs)
    have hs : '/' ∉ piece.reverse := fun hm => by simpa using List.mem_takeWhile_imp (List.mem_reverse.mp hm)
    obtain ⟨hne, hp⟩ := not_or.mp hp
    obtain ⟨hone, htwo⟩ := not_or.mp hp
    have hn : Component.ofPiece? piece.reverse = some (.normal piece.reverse) :=
      ofPiece?_eq_normal (by simpa using hne) (by simpa [List.reverse_eq_iff] using hone)
        (by simpa [List.reverse_eq_iff] using htwo)
    have hrev : cs.reverse = (cs.dropWhile (· ≠ '/')).reverse ++ piece.reverse := by
      rw [← List.reverse_append, hsplit]
    rw [hrev, getLast?_pieces hd hs hn] at h
    cases h
    exact ⟨_, [], by rw [hrev, List.append_nil], hd, ⟨hs, hn⟩, .nil⟩

/-- The parts of a path that names a file. -/
theorem exists_of_components {above : List Component} (h : components path = above ++ [.normal name]) :
    ∃ directory tail, path = directory ++ name ++ tail ∧ AtSlash directory ∧ IsName name ∧ Trailing tail ∧
      components directory = above := by
  have hlast : (pieces path).getLast? = some (.normal name) := by
    have hend := congrArg List.getLast? h
    rw [components, List.getLast?_append, List.getLast?_concat] at hend
    cases hp : (pieces path).getLast? with
    | some x =>
      rw [hp, Option.some_or] at hend
      exact hend
    | none =>
      rw [hp, Option.none_or, opening] at hend
      split at hend
      next => cases hend
      next =>
        split at hend
        next => cases hend
        next => cases hend
  rw [← List.reverse_reverse path] at hlast
  obtain ⟨directory, tail, he, hd, hn, ht⟩ := exists_name path.reverse hlast
  rw [List.reverse_reverse] at he
  subst he
  rw [components_of_piece hd hn.slashless hn.normal ht] at h
  exact ⟨directory, tail, rfl, hd, hn, ht, (List.append_inj' h rfl).1⟩

end Splits

section Extensions

variable {directory name stem tail : List Char} {extension : Option (List Char)}

theorem dotless {cs : List Char} (h : '.' ∉ cs) : ∀ c ∈ cs.reverse, decide (c ≠ '.') = true := by
  intro c hc
  rw [decide_eq_true_eq]
  rintro rfl
  exact h (List.mem_reverse.mp hc)

theorem splitExtension_of_stem (h : Stem name stem extension) : splitExtension name = (stem, extension) := by
  cases h with
  | whole h =>
    cases name with
    | nil => rfl
    | cons c rest =>
      have hdrop : (c :: rest).reverse.dropWhile (fun d => decide (d ≠ '.')) = if c = '.' then ['.'] else [] := by
        rw [List.tail_cons] at h
        rw [List.reverse_cons, List.dropWhile_append_of_pos (dotless h)]
        by_cases hc : c = '.' <;> simp [hc]
      rw [splitExtension]
      simp only [hdrop]
      by_cases hc : c = '.' <;> simp [hc]
  | @dotted stem extension hname hs he =>
    obtain ⟨c, more, hrev⟩ := List.exists_cons_of_ne_nil (List.reverse_ne_nil_iff.mpr hs)
    have hback : name.reverse = extension.reverse ++ '.' :: c :: more := by
      rw [hname, List.reverse_append, List.reverse_cons, hrev, List.append_assoc]
      rfl
    have hdrop : name.reverse.dropWhile (fun d => decide (d ≠ '.')) = '.' :: c :: more := by
      rw [hback, List.dropWhile_append_of_pos (dotless he)]
      rfl
    have htake : name.reverse.takeWhile (fun d => decide (d ≠ '.')) = extension.reverse := by
      rw [hback, List.takeWhile_append_of_pos (dotless he)]
      simp
    rw [splitExtension]
    simp only [hdrop, htake, List.reverse_reverse]
    rw [← hrev, List.reverse_reverse]

theorem exists_stem (name : List Char) : ∃ stem extension, Stem name stem extension := by
  by_cases h : '.' ∈ name.tail
  · cases name with
    | nil => cases h
    | cons c rest =>
      obtain ⟨back, front, hrest, hb⟩ := List.eq_append_cons_of_mem (List.mem_reverse.mpr h)
      refine ⟨c :: front.reverse, some back.reverse, .dotted ?_ (List.cons_ne_nil _ _) (by simpa using hb)⟩
      have he := congrArg List.reverse hrest
      rw [List.reverse_reverse, List.reverse_append, List.reverse_cons, List.append_assoc] at he
      exact congrArg (List.cons c) he
  · exact ⟨name, none, .whole h⟩

/-- What is left of the end of a path when more is cut off may still follow a name. -/
theorem Trailing.of_isPrefix {front : List Char} (h : Trailing tail) (hp : front <+: tail) : Trailing front := by
  induction h with
  | nil =>
    rw [List.prefix_nil.mp hp]
    exact .nil
  | slash ht ih =>
    rcases List.prefix_concat_iff.mp hp with rfl | hp
    · exact ht.slash
    · exact ih hp
  | @dot tail ht ih =>
    have htwo : tail ++ ['/', '.'] = (tail ++ ['/']) ++ ['.'] := by simp
    rw [htwo] at hp
    rcases List.prefix_concat_iff.mp hp with rfl | hp
    · rw [← htwo]
      exact ht.dot
    · rcases List.prefix_concat_iff.mp hp with rfl | hp
      · exact ht.slash
      · exact ih hp

theorem isName_dotted {extension : List Char} (hstem : '/' ∉ stem) (hext : '/' ∉ extension) (hne : stem ≠ [])
    (hdots : stem = ['.'] → extension ≠ []) : IsName (stem ++ '.' :: extension) := by
  refine ⟨by simp [hstem, hext], ofPiece?_eq_normal (by simp) ?_ ?_⟩
  · intro h
    obtain ⟨c, more, rfl⟩ := List.exists_cons_of_ne_nil hne
    simp at h
  · intro h
    obtain ⟨c, more, rfl⟩ := List.exists_cons_of_ne_nil hne
    obtain ⟨rfl, hmore⟩ := List.cons.inj h
    cases more with
    | nil => exact hdots rfl (List.cons.inj hmore).2
    | cons d more => simp at hmore

theorem setExtension_named {new : List Char} (hd : AtSlash directory) (hn : IsName name) (ht : Trailing tail)
    (hs : Stem name stem extension) :
    setExtension (directory ++ name ++ tail) new = directory ++ (stem ++ '.' :: new) := by
  rw [setExtension, split?_named hd hn ht]
  simp only [splitExtension_of_stem hs, List.append_assoc]

theorem extension?_named (hd : AtSlash directory) (hn : IsName name) (ht : Trailing tail)
    (hs : Stem name stem extension) : extension? (directory ++ name ++ tail) = extension := by
  rw [extension?, split?_named hd hn ht, Option.bind_some]
  exact congrArg Prod.snd (splitExtension_of_stem hs)

/-- As many characters as the extension has are taken off the end of the path, and of the extension so many are left
as follow it. -/
theorem take_named {old : List Char} (hname : name = stem ++ '.' :: old) :
    (directory ++ name ++ tail).take ((directory ++ name ++ tail).length - old.length) =
      directory ++ (stem ++ '.' :: old.take tail.length) ++ tail.take (tail.length - old.length) := by
  have hpath : directory ++ name ++ tail = (directory ++ stem ++ ['.']) ++ (old ++ tail) := by simp [hname]
  have hlen : (directory ++ name ++ tail).length - old.length = (directory ++ stem ++ ['.']).length + tail.length := by
    rw [hpath]
    simp only [List.length_append]
    omega
  rw [hlen, hpath, List.take_length_add_append, List.take_append]
  simp

/-- A name with an extension gets another one, unless only a dot stands before the dot of the extension and nothing
behind it. -/
theorem withExtension_of_dotted {old new : List Char} (hd : AtSlash directory) (hn : IsName name)
    (ht : Trailing tail) (hs : Stem name stem (some old)) (hkept : ¬ (stem = ['.'] ∧ tail = [])) :
    withExtension (directory ++ name ++ tail) new = directory ++ (stem ++ '.' :: new) := by
  have hext := extension?_named hd hn ht hs
  cases hs with
  | dotted hname hne hold =>
    have hslash := hn.slashless
    rw [hname] at hslash
    have hleft : IsName (stem ++ '.' :: old.take tail.length) := by
      apply isName_dotted
      · exact fun hm => hslash (List.mem_append_left _ hm)
      · exact fun hm => hslash (List.mem_append_right _ (List.mem_cons_of_mem _ (List.mem_of_mem_take hm)))
      · exact hne
      · intro hdot hnil
        rcases List.take_eq_nil_iff.mp hnil with hlen | hnil
        · exact hkept ⟨hdot, List.length_eq_zero_iff.mp hlen⟩
        · rw [hdot, hnil] at hname
          exact hn.ne.2.2 hname
    have hstem : Stem (stem ++ '.' :: old.take tail.length) stem (some (old.take tail.length)) :=
      .dotted rfl hne fun hm => hold (List.mem_of_mem_take hm)
    rw [withExtension, hext]
    simp only [take_named hname]
    exact setExtension_named hd hleft (ht.of_isPrefix (List.take_prefix _ _)) hstem

/-- Of two dots and an extension that nothing follows the two dots are left, and they are no name. -/
theorem withExtension_of_two_dots {old new : List Char} (hd : AtSlash directory) (hn : IsName name)
    (hs : Stem name ['.'] (some old)) : withExtension (directory ++ name ++ []) new = directory ++ ['.', '.'] := by
  have hext := extension?_named hd hn .nil hs
  cases hs with
  | dotted hname hne hold =>
    have hleft : (directory ++ name ++ []).take ((directory ++ name ++ []).length - old.length) =
        directory ++ ['.', '.'] := (take_named hname).trans (by simp)
    rw [withExtension, hext]
    simp only [hleft]
    rw [setExtension, split?_parent hd]

theorem withExtension_of_whole {new : List Char} (hd : AtSlash directory) (hn : IsName name) (ht : Trailing tail)
    (hs : Stem name stem none) : withExtension (directory ++ name ++ tail) new = directory ++ (stem ++ '.' :: new) := by
  rw [withExtension, extension?_named hd hn ht hs]
  exact setExtension_named hd hn ht hs

theorem suffix_iff (hn : IsName name) (ht : Trailing tail) : name <:+ directory ++ name ++ tail ↔ tail = [] := by
  obtain ⟨hne, hdot, -⟩ := hn.ne
  constructor
  · intro h
    cases ht with
    | nil => rfl
    | @slash tail ht =>
      rw [← List.append_assoc] at h
      rcases List.suffix_concat_iff.mp h with rfl | ⟨front, rfl, -⟩
      · exact (hne rfl).elim
      · exact (hn.slashless (by simp)).elim
    | @dot tail ht =>
      have htwo : directory ++ name ++ (tail ++ ['/', '.']) = (directory ++ name ++ tail ++ ['/']) ++ ['.'] := by simp
      rw [htwo] at h
      rcases List.suffix_concat_iff.mp h with rfl | ⟨front, hname, h⟩
      · exact (hne rfl).elim
      · rcases List.suffix_concat_iff.mp h with rfl | ⟨front', rfl, -⟩
        · exact (hdot hname).elim
        · exact (hn.slashless (by simp [hname])).elim
  · rintro rfl
    exact ⟨directory, by simp⟩

end Extensions

end PathName

namespace Command

open PathName

section Outputs

variable {directory name stem tail : List Char} {extension : Option (List Char)} {input : String}

/-- Another extension makes another name. -/
theorem stem_append_ne {new : List Char} (hs : Stem name stem extension) (hx : extension ≠ some new) :
    stem ++ '.' :: new ≠ name := by
  intro he
  cases hs with
  | whole h =>
    have hlen := congrArg List.length he
    rw [List.length_append, List.length_cons] at hlen
    omega
  | dotted hname hne hold =>
    rw [hname] at he
    exact hx (congrArg some (List.cons.inj (List.append_cancel_left he)).2.symm)

/-- What is added to the end of a path makes its last name longer, or it makes a new name behind it. -/
theorem components_append_ne (hd : AtSlash directory) (hn : IsName name) (ht : Trailing tail) :
    components (directory ++ name ++ tail ++ ['.', 'm', 'c']) ≠ components (directory ++ name ++ tail) := by
  obtain ⟨hne, -, -⟩ := hn.ne
  cases ht with
  | nil =>
    have hlonger : IsName (name ++ ['.', 'm', 'c']) := isName_dotted hn.slashless (by decide) hne (by simp)
    rw [List.append_nil, List.append_assoc, components_of_last hd hlonger.slashless hlonger.normal,
      components_of_last hd hn.slashless hn.normal]
    simp
  | @slash tail ht =>
    have hslash : AtSlash (directory ++ name ++ (tail ++ ['/'])) := .inr ⟨directory ++ name ++ tail, by simp⟩
    have hnew : components (directory ++ name ++ (tail ++ ['/']) ++ ['.', 'm', 'c']) =
        components (directory ++ name ++ (tail ++ ['/'])) ++ [.normal ['.', 'm', 'c']] :=
      components_of_last hslash (by decide) rfl
    rw [hnew]
    simp
  | @dot tail ht =>
    have hslash : AtSlash (directory ++ name ++ (tail ++ ['/'])) := .inr ⟨directory ++ name ++ tail, by simp⟩
    -- The dot at the end becomes the first character of the new name.
    have hnew : components (directory ++ name ++ (tail ++ ['/']) ++ ['.', '.', 'm', 'c']) =
        components (directory ++ name ++ (tail ++ ['/'])) ++ [.normal ['.', '.', 'm', 'c']] :=
      components_of_last hslash (by decide) rfl
    have hsplit : directory ++ name ++ (tail ++ ['/', '.']) ++ ['.', 'm', 'c'] =
        directory ++ name ++ (tail ++ ['/']) ++ ['.', '.', 'm', 'c'] := by simp
    rw [hsplit, hnew, components_of_piece hd hn.slashless hn.normal ht.slash,
      components_of_piece hd hn.slashless hn.normal ht.dot]
    simp

theorem defaultOutput_of_compiled (h : extension? input.toList = some compiledExtension) :
    defaultOutput input = input ++ ".mc" := by
  rw [defaultOutput, if_pos (by simpa [isCompiled] using h)]

theorem defaultOutput_of_other (h : extension? input.toList ≠ some compiledExtension) :
    (defaultOutput input).toList = withExtension input.toList compiledExtension := by
  rw [defaultOutput, if_neg (by simpa [isCompiled] using h), String.toList_ofList]

theorem components_compiled (hd : AtSlash directory) (hn : IsName name) (hs : Stem name stem extension) :
    components (directory ++ (stem ++ '.' :: compiledExtension)) =
      components directory ++ [.normal (stem ++ '.' :: compiledExtension)] := by
  obtain ⟨hslash, hne⟩ : '/' ∉ stem ∧ stem ≠ [] := by
    cases hs with
    | whole _ => exact ⟨hn.slashless, hn.ne.1⟩
    | dotted hname hne _ => exact ⟨fun hm => hn.slashless (hname ▸ List.mem_append_left _ hm), hne⟩
  have hnew : IsName (stem ++ '.' :: compiledExtension) :=
    isName_dotted hslash (by decide) hne (fun _ => by decide)
  exact components_of_last hd hnew.slashless hnew.normal

theorem withExtension_of_kept (hd : AtSlash directory) (hn : IsName name) (ht : Trailing tail)
    (hs : Stem name stem extension) (hkept : ¬ (stem = ['.'] ∧ tail = [])) :
    withExtension (directory ++ name ++ tail) compiledExtension = directory ++ (stem ++ '.' :: compiledExtension) := by
  cases extension with
  | none => exact withExtension_of_whole hd hn ht hs
  | some old => exact withExtension_of_dotted hd hn ht hs hkept

theorem components_lost (hd : AtSlash directory) (hn : IsName name) (hs : Stem name ['.'] extension) :
    components (withExtension (directory ++ name ++ []) compiledExtension) = components directory ++ [.parent] := by
  cases extension with
  | none =>
    cases hs
    exact (hn.ne.2.1 rfl).elim
  | some old =>
    rw [withExtension_of_two_dots hd hn hs]
    exact components_of_last hd (by decide) rfl

end Outputs

/-- The place for a compiled program is never its input. It is the input with the extension added, if the input has that
extension already. Else it is in the directory of the input, and its name is the stem of the input's name with the
extension; only if that name is two dots and an extension, and nothing follows it, the directory above is left. -/
theorem default_output_beside_input {input : String} {above : List Component} {name : List Char}
    (h : components input.toList = above ++ [.normal name]) :
    components (defaultOutput input).toList ≠ components input.toList ∧
    ∃ stem extension, Stem name stem extension ∧
      (extension = some compiledExtension → defaultOutput input = input ++ ".mc") ∧
      (extension ≠ some compiledExtension → ¬ (stem = ['.'] ∧ name <:+ input.toList) →
        components (defaultOutput input).toList = above ++ [.normal (stem ++ '.' :: compiledExtension)]) ∧
      (extension ≠ some compiledExtension → stem = ['.'] ∧ name <:+ input.toList →
        components (defaultOutput input).toList = above ++ [.parent]) := by
  obtain ⟨directory, tail, hinput, hd, hn, ht, rfl⟩ := exists_of_components h
  obtain ⟨stem, extension, hs⟩ := exists_stem name
  have hext : extension? input.toList = extension := by
    rw [hinput]
    exact extension?_named hd hn ht hs
  have hend : name <:+ input.toList ↔ tail = [] := by
    rw [hinput]
    exact suffix_iff hn ht
  have hkept : extension ≠ some compiledExtension → ¬ (stem = ['.'] ∧ tail = []) →
      components (defaultOutput input).toList =
        components directory ++ [.normal (stem ++ '.' :: compiledExtension)] := by
    intro hx hcond
    rw [defaultOutput_of_other (hext ▸ hx), hinput, withExtension_of_kept hd hn ht hs hcond,
      components_compiled hd hn hs]
  have hlost : extension ≠ some compiledExtension → stem = ['.'] ∧ tail = [] →
      components (defaultOutput input).toList = components directory ++ [.parent] := by
    rintro hx ⟨rfl, rfl⟩
    rw [defaultOutput_of_other (hext ▸ hx), hinput, components_lost hd hn hs]
  refine ⟨?_, stem, extension, hs, fun hx => defaultOutput_of_compiled (hext.trans hx), ?_, ?_⟩
  · by_cases hx : extension = some compiledExtension
    · rw [defaultOutput_of_compiled (hext.trans hx), String.toList_append, hinput]
      exact components_append_ne hd hn ht
    · rw [h]
      by_cases hcond : stem = ['.'] ∧ tail = []
      · rw [hlost hx hcond]
        simp
      · rw [hkept hx hcond]
        simpa using stem_append_ne hs hx
  · rw [hend]
    exact hkept
  · rw [hend]
    exact hlost

theorem default_output_of_dotted_directory :
    components "./d.x/prog.masm/.".toList = [.here, .normal "d.x".toList] ++ [.normal "prog.masm".toList] ∧
    components (defaultOutput "./d.x/prog.masm/.").toList ≠ components "./d.x/prog.masm/.".toList ∧
    components (defaultOutput "./d.x/prog.masm/.").toList =
      [.here, .normal "d.x".toList, .normal "prog.mc".toList] := by
  have h : components "./d.x/prog.masm/.".toList =
      [.here, .normal "d.x".toList] ++ [.normal "prog.masm".toList] := by decide +kernel
  exact ⟨h, (default_output_beside_input h).1, by decide +kernel⟩

/-- The name has a dot for its stem and an extension that is another one, and no name is left. -/
theorem two_dots_lose_name :
    components "..asm".toList = [.normal "..asm".toList] ∧ Stem "..asm".toList ['.'] (some "asm".toList) ∧
    some "asm".toList ≠ some compiledExtension ∧ defaultOutput "..asm" = ".." ∧
    components (defaultOutput "..asm").toList = [.parent] ∧
    components (defaultOutput "..asm").toList ≠ [.normal (['.'] ++ '.' :: compiledExtension)] := by
  refine ⟨?_, .dotted ?_ ?_ ?_, ?_, ?_, ?_, ?_⟩ <;>
    decide +kernel

end Command

end RegisterMachine

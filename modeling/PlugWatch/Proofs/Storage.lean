import Mathlib.Data.List.Basic
import Mathlib.Tactic.SplitIfs
import PlugWatch.Config.Storage

/-! # Files keep what is written

  Where a path has **room** for a file, writing succeeds, and reading the path afterwards gives what
  was written: the way to the file leads through directories only, and the file is put where none
  was. Directories that are there already are made again without effect.
-/

namespace PlugWatch

/-! ## Paths -/

namespace Path

variable {path : String} {cs xs ys : List Char}

theorem splitOn_append_cons (xs ys : List Char) :
    (xs ++ '/' :: ys).splitOn '/' = xs.splitOn '/' ++ ys.splitOn '/' :=
  List.splitOnP_append_cons xs ys rfl

theorem splitOn_of_notMem (h : '/' ∉ ys) : ys.splitOn '/' = [ys] :=
  List.splitOnP_eq_singleton fun x hx => by
    rw [beq_eq_false_iff_ne]
    rintro rfl
    exact h hx

theorem parts_split {name : String} (h : path.toList = xs ++ '/' :: name.toList)
    (hname : '/' ∉ name.toList) : parts path = (xs.splitOn '/').map String.ofList ++ [name] := by
  rw [parts, h, splitOn_append_cons, splitOn_of_notMem hname]
  simp

/-- Parts that say nothing. -/
def Blank (xs : List String) : Prop :=
  ∀ x ∈ xs, x = "" ∨ x = "."

/-- What is stripped from the end of a path says nothing. -/
theorem stripEnd_blank (cs : List Char) : ∃ blank, Blank blank ∧
    (cs.reverse.splitOn '/').map String.ofList =
      ((stripEnd cs).reverse.splitOn '/').map String.ofList ++ blank := by
  fun_induction stripEnd cs with
  | case1 cs ih =>
    obtain ⟨blank, hblank, hparts⟩ := ih
    refine ⟨blank ++ [""], by simpa [Blank, or_imp, forall_and] using hblank, ?_⟩
    rw [List.reverse_cons, splitOn_append_cons, List.map_append, hparts]
    simp
  | case2 cs ih =>
    obtain ⟨blank, hblank, hparts⟩ := ih
    refine ⟨blank ++ ["."], by simpa [Blank, or_imp, forall_and] using hblank, ?_⟩
    rw [List.reverse_cons, List.reverse_cons, List.append_assoc, List.singleton_append,
      splitOn_append_cons, List.map_append, hparts]
    simp [splitOn_of_notMem]
  | case3 cs => exact ⟨[], by simp [Blank], by simp⟩

theorem stripEnd_suffix (cs : List Char) : stripEnd cs <:+ cs := by
  fun_induction stripEnd cs with
  | case1 cs ih => exact ih.trans (List.suffix_cons _ _)
  | case2 cs ih => exact ih.trans ((List.suffix_cons _ _).trans (List.suffix_cons _ _))
  | case3 cs => exact List.suffix_refl _

theorem stripEnd_append (hys : '/' ∉ ys) (hne : ys ≠ []) (hdot : ys ≠ ['.']) :
    stripEnd (ys ++ cs) = ys ++ cs := by
  rw [stripEnd.eq_def]
  split
  · next heq =>
    cases ys with
    | nil => exact absurd rfl hne
    | cons y ys => exact absurd (by simp_all) hys
  · next heq =>
    rcases ys with _ | ⟨y, _ | ⟨z, ys⟩⟩
    · exact absurd rfl hne
    · exact absurd (by simp_all) hdot
    · exact absurd (by simp_all) hys
  · rfl

theorem parent?_eq (h : path.toList = xs ++ '/' :: ys) (hys : '/' ∉ ys) (hne : ys ≠ [])
    (hdot : ys ≠ ['.']) (habs : isAbsolute path = true) : parent? path = some
      (if stripEnd xs.reverse = [] then "/" else String.ofList (stripEnd xs.reverse).reverse) := by
  have hreverse : path.toList.reverse = ys.reverse ++ '/' :: xs.reverse := by
    rw [h]
    simp
  have hstrip : stripEnd path.toList.reverse = ys.reverse ++ '/' :: xs.reverse := by
    rw [hreverse]
    exact stripEnd_append (by simpa using hys) (by simpa using hne) (by simpa using hdot)
  have hdrop : (ys.reverse ++ '/' :: xs.reverse).dropWhile (· != '/') = '/' :: xs.reverse := by
    rw [List.dropWhile_append_of_pos]
    · rfl
    · intro c hc
      rw [bne_iff_ne]
      rintro rfl
      exact hys (by simpa using hc)
  unfold parent?
  rw [hstrip]
  split
  · next heq => simp at heq
  · rw [hdrop, stripEnd, habs]
    split <;> simp_all

/-- The parent of a path is its directory, but for parts that say nothing. -/
theorem parent?_split (h : path.toList = xs ++ '/' :: ys) (hys : '/' ∉ ys) (hne : ys ≠ [])
    (hdot : ys ≠ ['.']) (habs : isAbsolute path = true) :
    ∃ p blank, parent? path = some p ∧ isAbsolute p = true ∧ Blank blank ∧
      (p = "/" ∧ (xs.splitOn '/').map String.ofList = blank ∨
        (xs.splitOn '/').map String.ofList = parts p ++ blank) := by
  obtain ⟨blank, hblank, hparts⟩ := stripEnd_blank xs.reverse
  rw [List.reverse_reverse] at hparts
  rw [parent?_eq h hys hne hdot habs]
  split_ifs with hroot
  · refine ⟨"/", "" :: blank, rfl, rfl, by simpa [Blank] using hblank, .inl ⟨rfl, ?_⟩⟩
    rw [hparts, hroot]
    rfl
  · refine ⟨_, blank, rfl, ?_, hblank, .inr ?_⟩
    · -- the path starts as its parent does
      obtain ⟨zs, hsuffix⟩ := stripEnd_suffix xs.reverse
      have hxs : xs = (stripEnd xs.reverse).reverse ++ zs.reverse := by
        rw [← List.reverse_append, hsuffix, List.reverse_reverse]
      generalize stripEnd xs.reverse = w at hroot hxs
      obtain ⟨c, w', hw⟩ := List.exists_cons_of_ne_nil (mt List.reverse_eq_nil_iff.mp hroot)
      simp only [isAbsolute, String.toList_ofList]
      simpa [isAbsolute, h, hxs, hw] using habs
    · rw [hparts, parts, String.toList_ofList]

/-- A name in a directory: the path of the directory, but for parts that say nothing, a slash and
    the name. -/
theorem join_split {dir name : String} (hdir : dir ≠ "") (hname : '/' ∉ name.toList) :
    ∃ xs blank, (join dir name).toList = xs ++ '/' :: name.toList ∧ Blank blank ∧
      parts dir = (xs.splitOn '/').map String.ofList ++ blank ∧
        isAbsolute (join dir name) = isAbsolute dir := by
  have hrelative : ¬ isAbsolute name = true := by
    intro habs
    exact hname (List.mem_of_mem_head? (by simpa [isAbsolute] using habs))
  obtain ⟨c, cs, hopen⟩ := List.exists_cons_of_ne_nil (mt String.toList_eq_nil_iff.mp hdir)
  rw [join, if_neg hrelative]
  split_ifs with hend
  · obtain ⟨ys, hys⟩ := List.getLast?_eq_some_iff.mp (hend.resolve_left hdir)
    refine ⟨ys, [""], by simp [hys], by simp [Blank], ?_, by simp [isAbsolute, hopen]⟩
    rw [parts, hys, splitOn_append_cons, List.map_append]
    rfl
  · refine ⟨dir.toList, [], by simp, by simp [Blank], by simp [parts], ?_⟩
    simp [isAbsolute, hopen]

end Path

namespace FileTree

variable {t : FileTree} {l m : Location} {n : FileNode} {path p name x : String}
  {xs ys above : List String}

/-! ## Following parts -/

theorem isDirectory_iff : t.isDirectory l = true ↔ t.node? l = some .directory := by
  unfold isDirectory
  split <;> simp_all

/-- The part `x` leads from the directory `l` to `m`. -/
def Leads (t : FileTree) (l : Location) (x : String) (m : Location) : Prop :=
  t.isDirectory l = true ∧
    if x = "" ∨ x = "." then m = l
    else if x = ".." then m = l.dropLast
    else m = l ++ [x] ∧ (t.node? m).isSome = true

theorem follow_cons_iff : t.follow l (x :: xs) = .ok m ↔
    ∃ l', t.Leads l x l' ∧ t.follow l' xs = .ok m := by
  rw [follow]
  split
  · next hnode =>
    simp only [Leads, isDirectory_iff.mpr hnode, true_and]
    split_ifs with hblank hup
    · simp
    · simp
    · cases hx : t.node? (l ++ [x]) with
      | none => simp [hx]
      | some n => simp [hx]
  · next hnode =>
    have hdir : t.isDirectory l = false := by
      by_contra h
      exact hnode (isDirectory_iff.mp (by simpa using h))
    simp [Leads, hdir]

theorem follow_append_iff : t.follow l (xs ++ ys) = .ok m ↔
    ∃ l', t.follow l xs = .ok l' ∧ t.follow l' ys = .ok m := by
  induction xs generalizing l with
  | nil => simp [follow]
  | cons x xs ih =>
    rw [List.cons_append, follow_cons_iff]
    simp only [follow_cons_iff, ih]
    grind

theorem follow_single : t.follow l [x] = .ok m ↔ t.Leads l x m := by
  rw [follow_cons_iff]
  simp only [follow, Except.ok.injEq, exists_eq_right]

/-- Only directories are passed. -/
theorem isDirectory_of_follow (h : t.follow l xs = .ok m) (hm : t.isDirectory m = true) :
    t.isDirectory l = true := by
  cases xs with
  | nil =>
    obtain rfl : l = m := by simpa [follow] using h
    exact hm
  | cons x xs =>
    obtain ⟨l', hleads, _⟩ := follow_cons_iff.mp h
    exact hleads.1

theorem follow_blank (hxs : Path.Blank xs) (h : t.follow l xs = .ok m) : m = l := by
  induction xs with
  | nil => simpa [follow] using h.symm
  | cons x xs ih =>
    obtain ⟨hx, hxs⟩ := List.forall_mem_cons.mp hxs
    obtain ⟨l', ⟨_, hleads⟩, hrest⟩ := follow_cons_iff.mp h
    rw [if_pos hx] at hleads
    exact ih hxs (hleads ▸ hrest)

theorem follow_of_append_blank (hys : Path.Blank ys) (h : t.follow l (xs ++ ys) = .ok m) :
    t.follow l xs = .ok m := by
  obtain ⟨l', hxs, hrest⟩ := follow_append_iff.mp h
  rw [hxs, follow_blank hys hrest]

/-! ## Putting a file where no directory is -/

theorem lookup_filter_of_ne {nodes : List (Location × FileNode)} (hl : l ≠ m) :
    (nodes.filter (·.1 != m)).lookup l = nodes.lookup l := by
  induction nodes with
  | nil => rfl
  | cons e nodes ih =>
    by_cases he : e.1 = m
    · have hle : (l == e.1) = false := by simpa [he] using hl
      rw [List.filter_cons_of_neg (by simp [he]), ih, List.lookup_cons, hle]
    · rw [List.filter_cons_of_pos (by simp [he]), List.lookup_cons, List.lookup_cons, ih]

theorem node?_put_of_ne (hl : l ≠ m) : (t.put m n).node? l = t.node? l := by
  have hlm : (l == m) = false := by simpa using hl
  simp only [node?, put, List.lookup_cons, hlm, lookup_filter_of_ne hl]

theorem node?_put_self (hm : m ≠ []) : (t.put m n).node? m = some n := by
  simp [node?, put, hm]

theorem isDirectory_put (hl : t.isDirectory l = true) (hm : t.isDirectory m = false) :
    (t.put m n).isDirectory l = true := by
  have hne : l ≠ m := by rintro rfl; simp [hl] at hm
  rw [isDirectory_iff, node?_put_of_ne hne, ← isDirectory_iff, hl]

theorem Leads.put {l' : Location} (h : t.Leads l x l') (hl' : t.isDirectory l' = true)
    (hm : t.isDirectory m = false) : (t.put m n).Leads l x l' := by
  have hne : l' ≠ m := by rintro rfl; simp [hl'] at hm
  refine ⟨isDirectory_put h.1 hm, ?_⟩
  rw [node?_put_of_ne hne]
  exact h.2

/-- The way to a directory stays. -/
theorem follow_put {l' : Location} (h : t.follow l xs = .ok l') (hl' : t.isDirectory l' = true)
    (hm : t.isDirectory m = false) : (t.put m n).follow l xs = .ok l' := by
  induction xs generalizing l with
  | nil => exact h
  | cons x xs ih =>
    obtain ⟨k, hleads, hrest⟩ := follow_cons_iff.mp h
    have hk := isDirectory_of_follow hrest hl'
    exact follow_cons_iff.mpr ⟨k, hleads.put hk hm, ih hrest⟩

/-! ## Room for a file -/

/-- A name that a file can have. -/
def Proper (name : String) : Prop :=
  name ≠ "" ∧ name ≠ "." ∧ name ≠ ".."

/-- The name is free for a file in the directory `l`, to which the path leads but for the name.
    There may be a file of this name, but no directory. -/
structure RoomAt (t : FileTree) (path : String) (way : List Char) (name : String) (l : Location) :
    Prop where
  split : path.toList = way ++ '/' :: name.toList
  slash : '/' ∉ name.toList
  proper : Proper name
  follow : t.follow (t.origin path) ((way.splitOn '/').map String.ofList) = .ok l
  directory : t.isDirectory l = true
  free : t.isDirectory (l ++ [name]) = false

/-- There is room for a file at a path. -/
def HasRoom (t : FileTree) (path : String) : Prop :=
  ∃ way name l, t.RoomAt path way name l

variable {way : List Char}

theorem Leads.proper (hl : t.isDirectory l = true) (hname : Proper name)
    (hnode : (t.node? (l ++ [name])).isSome = true) : t.Leads l name (l ++ [name]) := by
  refine ⟨hl, ?_⟩
  rw [if_neg (by simp [hname.1, hname.2.1]), if_neg hname.2.2]
  exact ⟨rfl, hnode⟩

theorem locate_split (hsplit : path.toList = way ++ '/' :: name.toList)
    (hslash : '/' ∉ name.toList)
    (hway : t.follow (t.origin path) ((way.splitOn '/').map String.ofList) = .ok l)
    (hlast : t.Leads l name m) : t.locate path = .ok m := by
  have hne : path ≠ "" := by rintro rfl; simp at hsplit
  rw [locate, if_neg hne, Path.parts_split hsplit hslash]
  exact follow_append_iff.mpr ⟨l, hway, follow_single.mpr hlast⟩

theorem RoomAt.splitName (h : t.RoomAt path way name l) :
    splitName path = some ((way.splitOn '/').map String.ofList, name) := by
  simp [FileTree.splitName, Path.parts_split h.split h.slash, h.proper.1]

theorem RoomAt.ne_empty (h : t.RoomAt path way name l) : path ≠ "" := by
  rintro rfl
  simpa using h.split

theorem RoomAt.getLast? (h : t.RoomAt path way name l) : path.toList.getLast? ≠ some '/' := by
  intro hlast
  have hsplit : path.toList = (way ++ ['/']) ++ name.toList := by simp [h.split]
  rw [hsplit, List.getLast?_append_of_ne_nil _ (mt String.toList_eq_nil_iff.mp h.proper.1)] at hlast
  exact h.slash (List.mem_of_getLast? hlast)

theorem RoomAt.write (h : t.RoomAt path way name l) (content : ByteArray) :
    t.write path content = .ok (t.put (l ++ [name]) (.file content)) := by
  have henter : t.enter (t.origin path) ((way.splitOn '/').map String.ofList) = .ok l := by
    rw [enter, h.follow]
    exact if_pos h.directory
  simp only [FileTree.write, h.ne_empty, h.splitName, henter, h.proper.2.1, h.proper.2.2,
    h.getLast?, or_self, if_false]
  split
  · next hnode => exact absurd (isDirectory_iff.mpr hnode) (by simp [h.free])
  · rfl

/-- A file is found where it was put. -/
theorem RoomAt.read (h : t.RoomAt path way name l) (content : ByteArray) :
    (t.put (l ++ [name]) (.file content)).read path = .ok content := by
  have hself : (t.put (l ++ [name]) (.file content)).node? (l ++ [name]) = some (.file content) :=
    node?_put_self (by simp)
  have hlast : (t.put (l ++ [name]) (.file content)).Leads l name (l ++ [name]) :=
    Leads.proper (isDirectory_put h.directory h.free) h.proper (by rw [hself]; rfl)
  have hway := follow_put (n := .file content) h.follow h.directory h.free
  rw [FileTree.read, locate_split h.split h.slash hway hlast]
  simp only [hself]

/-- Where there is room, a file is written, and read as it was written. -/
theorem HasRoom.write (h : t.HasRoom path) (content : ByteArray) :
    ∃ t', t.write path content = .ok t' ∧ t'.read path = .ok content := by
  obtain ⟨way, name, l, h⟩ := h
  exact ⟨_, h.write content, h.read content⟩

/-! ## Directories that are there -/

theorem hasDirectory_iff : t.hasDirectory p = true ↔
    ∃ l, t.locate p = .ok l ∧ t.isDirectory l = true := by
  unfold hasDirectory
  split <;> simp_all

theorem hasDirectory_root : t.hasDirectory "/" = true := by
  have hroot : t.isDirectory [] = true := isDirectory_iff.mpr rfl
  have hparts : Path.parts "/" = ["", ""] := by decide
  refine hasDirectory_iff.mpr ⟨[], ?_, hroot⟩
  rw [locate, if_neg (by decide), hparts]
  rfl

/-- The name of a path is its last part that is not empty. -/
theorem splitName_eq_some (h : splitName p = some (above, name)) :
    name ≠ "" ∧ ∃ blank, Path.parts p = above ++ name :: blank := by
  have hhead := List.head?_dropWhile_not (· == "") (Path.parts p).reverse
  have hwhole : (Path.parts p).reverse = _ :=
    (List.takeWhile_append_dropWhile (p := (· == ""))).symm
  unfold splitName at h
  split at h
  · cases h
  · next heq =>
    cases h
    rw [heq] at hhead hwhole
    generalize (Path.parts p).reverse.takeWhile (· == "") = blank at hwhole
    refine ⟨by simpa using hhead, blank.reverse, ?_⟩
    rw [← List.reverse_reverse (Path.parts p), hwhole]
    simp

theorem makeDirectory_existing (h : t.hasDirectory p = true) :
    t.makeDirectory p = .error .alreadyExists := by
  obtain ⟨l, hlocate, hdir⟩ := hasDirectory_iff.mp h
  have hfollow : t.follow (t.origin p) (Path.parts p) = .ok l := by
    unfold locate at hlocate
    split_ifs at hlocate
    exact hlocate
  unfold makeDirectory vacancy
  cases hname : splitName p with
  | none => rfl
  | some s =>
    obtain ⟨above, name⟩ := s
    obtain ⟨hempty, blank, hparts⟩ := splitName_eq_some hname
    rw [hparts] at hfollow
    obtain ⟨l', habove, hrest⟩ := follow_append_iff.mp hfollow
    obtain ⟨k, hleads, _⟩ := follow_cons_iff.mp hrest
    have henter : t.enter (t.origin p) above = .ok l' := by
      rw [enter, habove]
      exact if_pos hleads.1
    simp only [henter]
    split_ifs with hdots
    · rfl
    · simp only [not_or] at hdots
      obtain ⟨rfl, hnode⟩ := by simpa [hempty, hdots.1, hdots.2] using hleads.2
      obtain ⟨n, hn⟩ := Option.isSome_iff_exists.mp hnode
      simp only [hn]

theorem makeDirectories_existing (hp : p ≠ "") (h : t.hasDirectory p = true) :
    t.makeDirectories p = (.ok (), t) := by
  obtain ⟨ps, hps⟩ : ∃ ps, Path.ancestors p = p :: ps := by
    unfold Path.ancestors Path.upwards
    split <;> exact ⟨_, rfl⟩
  rw [makeDirectories, hps, makeFirst, if_neg hp, makeDirectory_existing h]
  simp [h]

/-- There is room for a file in a directory that is there, unless a directory has its name. -/
theorem hasRoom_join {dir : String} (hdir : t.hasDirectory dir = true)
    (hslash : '/' ∉ name.toList) (hname : Proper name)
    (hfree : t.hasDirectory (Path.join dir name) = false) : t.HasRoom (Path.join dir name) := by
  obtain ⟨l, hlocate, hl⟩ := hasDirectory_iff.mp hdir
  have hne : dir ≠ "" := by
    rintro rfl
    simp [locate] at hlocate
  obtain ⟨way, blank, hsplit, hblank, hparts, habs⟩ := Path.join_split hne hslash
  have hway : t.follow (t.origin (Path.join dir name)) ((way.splitOn '/').map String.ofList) =
      .ok l := by
    rw [locate, if_neg hne, hparts] at hlocate
    rw [origin, habs]
    exact follow_of_append_blank hblank hlocate
  refine ⟨way, name, l, hsplit, hslash, hname, hway, hl, ?_⟩
  by_contra hthere
  rw [Bool.not_eq_false] at hthere
  have hlast : t.Leads l name (l ++ [name]) :=
    Leads.proper hl hname (by rw [isDirectory_iff.mp hthere]; rfl)
  have hdirectory : t.hasDirectory (Path.join dir name) = true :=
    hasDirectory_iff.mpr ⟨_, locate_split hsplit hslash hway hlast, hthere⟩
  simp [hdirectory] at hfree

/-- To save where there is room, no directory has to be made. -/
theorem HasRoom.prepare (h : t.HasRoom path) (habs : Path.isAbsolute path = true) :
    Config.prepare t path = (.ok (), t) := by
  obtain ⟨way, name, l, h⟩ := h
  have hempty : name.toList ≠ [] := mt String.toList_eq_nil_iff.mp h.proper.1
  have hdot : name.toList ≠ ['.'] := fun heq => h.proper.2.1 (String.toList_inj.mp heq)
  obtain ⟨p, blank, hparent, hp, hblank, hparts⟩ :=
    Path.parent?_split h.split h.slash hempty hdot habs
  have hne : p ≠ "" := by rintro rfl; simp [Path.isAbsolute] at hp
  have hdir : t.hasDirectory p = true := by
    have hway := h.follow
    obtain ⟨rfl, hparts⟩ | hparts := hparts
    · exact hasDirectory_root
    · rw [hparts] at hway
      have horigin : t.origin p = t.origin path := by simp [origin, hp, habs]
      refine hasDirectory_iff.mpr ⟨l, ?_, h.directory⟩
      rw [locate, if_neg hne, horigin, follow_of_append_blank hblank hway]
  rw [Config.prepare, hparent]
  simp only [makeDirectories_existing hne hdir]

end FileTree

end PlugWatch

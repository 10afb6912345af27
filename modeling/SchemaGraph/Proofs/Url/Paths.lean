import SchemaGraph.Proofs.Url.Characters

set_option autoImplicit false

/-! # Paths in their written form

The path of a URL is written as segments with a slash before each. Reading a path goes through its
segments one by one: dots are taken out, and all others are escaped and added. Whatever the text,
what has been read stays in written form (`takeSegments_isPath`), and a path in written form is
read back as it is (`takeSegments_slashed`).
-/

namespace SchemaGraph

namespace Url

variable {kind : Kind}

/-! ## Segments -/

/-- A segment that is read as it is written. -/
structure IsSegment (kind : Kind) (segment : List Char) : Prop where
  encoded : Percent.IsEncoded inPath segment
  whole : ∀ c ∈ segment, endsSegment kind c = false
  notDouble : isDoubleDot segment = false
  notSingle : isSingleDot segment = false

theorem isSegment_nil : IsSegment kind [] :=
  ⟨by simp [Percent.IsEncoded], by simp, rfl, rfl⟩

theorem endsSegment_escapes : ∀ c ∈ Percent.escapes, endsSegment kind c = false := by
  cases kind <;> exact eq_false_of_any (by decide)

theorem IsSegment.slash_not_mem {segment : List Char} (h : IsSegment kind segment) :
    '/' ∉ segment := fun hmem => by cases h.whole '/' hmem

/-- Escaping a text without slashes gives a segment, unless it gives dots. -/
theorem isSegment_encode {text : List Char} (h : ∀ c ∈ text, endsSegment kind c = false)
    (hdouble : isDoubleDot (Percent.encode inPath text) = false)
    (hsingle : isSingleDot (Percent.encode inPath text) = false) :
    IsSegment kind (Percent.encode inPath text) := by
  refine ⟨Percent.isEncoded_encode inPath_escapes, fun c hc => ?_, hdouble, hsingle⟩
  rcases Percent.mem_encode hc with ⟨hmem, -⟩ | hescape
  · exact h c hmem
  · exact endsSegment_escapes c hescape

/-! ## Paths -/

/-- Segments with a slash before each. -/
def slashed (segments : List (List Char)) : List Char := segments.flatMap ('/' :: ·)

theorem slashed_append (front back : List (List Char)) :
    slashed (front ++ back) = slashed front ++ slashed back :=
  List.flatMap_append

theorem slashed_snoc (front : List (List Char)) (last : List Char) :
    slashed (front ++ [last]) = slashed front ++ '/' :: last := by
  rw [slashed_append]
  simp [slashed]

/-- A path in its written form. -/
def IsPath (kind : Kind) (path : List Char) : Prop :=
  ∃ first segments, IsSegment kind first ∧ (∀ segment ∈ segments, IsSegment kind segment) ∧
    path = slashed (first :: segments)

theorem isPath_slashed {segments : List (List Char)} (hne : segments ≠ [])
    (hall : ∀ segment ∈ segments, IsSegment kind segment) : IsPath kind (slashed segments) := by
  cases segments with
  | nil => exact absurd rfl hne
  | cons first rest =>
      refine ⟨first, rest, hall first List.mem_cons_self, fun segment hsegment => ?_, rfl⟩
      exact hall segment (List.mem_cons_of_mem first hsegment)

theorem IsPath.all {path : List Char} (h : IsPath kind path) :
    ∃ segments, (∀ segment ∈ segments, IsSegment kind segment) ∧ path = slashed segments := by
  obtain ⟨first, rest, hfirst, hall, rfl⟩ := h
  refine ⟨first :: rest, fun segment hsegment => ?_, rfl⟩
  rcases List.mem_cons.1 hsegment with rfl | hsegment
  · exact hfirst
  · exact hall segment hsegment

/-- A path that ends with the slash before its next segment. -/
def IsOpen (kind : Kind) (path : List Char) : Prop :=
  ∃ segments, (∀ segment ∈ segments, IsSegment kind segment) ∧ path = slashed segments ++ ['/']

theorem isOpen_root : IsOpen kind ['/'] := ⟨[], by simp, rfl⟩

namespace IsOpen

variable {path segment : List Char}

theorem getLast? (h : IsOpen kind path) : path.getLast? = some '/' := by
  obtain ⟨segments, -, rfl⟩ := h
  simp

theorem ne_nil (h : IsOpen kind path) : path ≠ [] := by
  rintro rfl
  cases h.getLast?

theorem append (h : IsOpen kind path) (hsegment : IsSegment kind segment) :
    IsPath kind (path ++ segment) := by
  obtain ⟨segments, hall, rfl⟩ := h
  have heq : slashed segments ++ ['/'] ++ segment = slashed (segments ++ [segment]) := by
    rw [slashed_snoc, List.append_assoc]
    rfl
  rw [heq]
  refine isPath_slashed (by simp) fun other hother => ?_
  rcases List.mem_append.1 hother with hother | hother
  · exact hall other hother
  · rw [List.mem_singleton.1 hother]
    exact hsegment

theorem isPath (h : IsOpen kind path) : IsPath kind path := by
  have happend := h.append isSegment_nil
  rw [List.append_nil] at happend
  exact happend

theorem push (h : IsOpen kind path) (hsegment : IsSegment kind segment) :
    IsOpen kind (path ++ segment ++ ['/']) := by
  obtain ⟨segments, hall, hpath⟩ := (h.append hsegment).all
  exact ⟨segments, hall, by rw [hpath]⟩

/-- An open path is no drive letter. -/
theorem not_drive (h : IsOpen kind path) : isNormalDriveLetter (path.drop 1) = false := by
  have hlast := h.getLast?
  match path with
  | [] => rfl
  | [_] => rfl
  | [_, _] => rfl
  | [_, a, b] =>
      obtain rfl : b = '/' := by simpa using hlast
      show (Ascii.isLetter a && '/' == ':') = false
      rw [show ('/' == ':') = false from rfl, Bool.and_false]
  | _ :: _ :: _ :: _ :: _ => rfl

end IsOpen

/-- What follows the last slash. -/
theorem lastSegment_append {front last : List Char} (h : '/' ∉ last) :
    lastSegment (front ++ '/' :: last) = last := by
  have hall : ∀ c ∈ last.reverse, (c != '/') = true := by
    intro c hc
    rw [bne_iff_ne]
    rintro rfl
    exact h (List.mem_reverse.1 hc)
  unfold lastSegment
  rw [List.reverse_append, List.reverse_cons, List.append_assoc,
    List.takeWhile_append_of_pos hall]
  simp

theorem dropLastSegment {front last : List Char} (h : '/' ∉ last) :
    ((front ++ '/' :: last).reverse.dropWhile (· != '/')).reverse = front ++ ['/'] := by
  have hall : ∀ c ∈ last.reverse, (c != '/') = true := by
    intro c hc
    rw [bne_iff_ne]
    rintro rfl
    exact h (List.mem_reverse.1 hc)
  rw [List.reverse_append, List.reverse_cons, List.append_assoc,
    List.dropWhile_append_of_pos hall]
  simp

theorem not_normal_of_not_starts {segment : List Char}
    (h : startsWithDriveLetter (segment ++ ['/']) = false) : isNormalDriveLetter segment = false := by
  match segment with
  | [] => rfl
  | [_] => rfl
  | [a, b] =>
      have hdrive : (isDriveLetter [a, b] && true) = false := h
      simp only [isDriveLetter, Bool.and_true, Bool.and_eq_false_iff, Bool.or_eq_false_iff]
        at hdrive
      simp only [isNormalDriveLetter, Bool.and_eq_false_iff]
      exact hdrive.imp id And.left
  | _ :: _ :: _ :: _ => rfl

/-- Going up from an open path leads to an open path. -/
theorem goUp_isOpen {path : List Char} (h : IsOpen kind path) (slash : Bool) :
    IsOpen kind (goUp kind path slash) := by
  have hlast := h.getLast?
  have hdropped : IsOpen kind (dropSegment kind
      (if path.getLast? == some '/' && lastSlashCanGo path then path.dropLast else path)) := by
    obtain ⟨segments, hall, rfl⟩ := h
    rw [hlast]
    cases hgo : lastSlashCanGo (slashed segments ++ ['/']) with
    | false =>
        show IsOpen kind (dropSegment kind (slashed segments ++ ['/']))
        have hsegment : lastSegment (slashed segments ++ ['/']) = [] :=
          lastSegment_append (by simp)
        unfold dropSegment
        rw [hsegment, show isNormalDriveLetter [] = false from rfl, Bool.and_false,
          dropLastSegment (by simp)]
        exact ⟨segments, hall, rfl⟩
    | true =>
        show IsOpen kind (dropSegment kind (slashed segments ++ ['/']).dropLast)
        rw [List.dropLast_concat]
        unfold lastSlashCanGo at hgo
        rw [List.dropLast_concat] at hgo
        obtain ⟨hslash, hdrive⟩ := Bool.and_eq_true_iff.1 hgo
        rcases List.eq_nil_or_concat segments with rfl | ⟨front, last, rfl⟩
        · cases hslash
        · rw [List.concat_eq_append] at hall hdrive ⊢
          have hmem : '/' ∉ last := (hall last (by simp)).slash_not_mem
          rw [slashed_snoc, lastSegment_append hmem] at hdrive
          unfold dropSegment
          rw [slashed_snoc, lastSegment_append hmem,
            not_normal_of_not_starts (by simpa using hdrive), Bool.and_false,
            dropLastSegment hmem]
          exact ⟨front, fun segment hsegment => hall segment (by simp [hsegment]), rfl⟩
  unfold goUp
  dsimp only
  generalize hfront : (if path.getLast? == some '/' && lastSlashCanGo path then path.dropLast
    else path) = front at hdropped ⊢
  cases front with
  | nil =>
      have hnil : dropSegment kind [] = [] := by cases kind <;> rfl
      exact absurd hnil hdropped.ne_nil
  | cons c rest =>
      show IsOpen kind (if slash && (dropSegment kind (c :: rest)).getLast? != some '/' then _
        else dropSegment kind (c :: rest))
      rw [hdropped.getLast?, show (some '/' != some '/') = false from rfl, Bool.and_false]
      exact hdropped

/-! ## Reading segments -/

theorem addSegment_isOpen {path : List Char} (h : IsOpen kind path) (segment : List Char) :
    addSegment kind path segment = path ++ Percent.encode inPath segment := by
  unfold addSegment
  cases segment with
  | nil => exact (List.append_nil path).symm
  | cons c rest =>
      dsimp only [List.isEmpty_cons]
      rw [h.not_drive, Bool.and_false]
      rfl

/-- The written form of a drive letter is a segment. -/
theorem isSegment_drive {a : Char} (h : Ascii.isLetter a = true) : IsSegment kind [a, ':'] := by
  have hne : ∀ d, Ascii.isLetter d = false → a ≠ d := by
    rintro d hd rfl
    rw [hd] at h
    cases h
  refine ⟨fun c hc => ?_, fun c hc => ?_, ?_, ?_⟩
  · rcases List.mem_cons.1 hc with rfl | hc
    · exact inPath_letter h
    · rw [List.mem_singleton.1 hc]
      decide
  · rcases List.mem_cons.1 hc with rfl | hc
    · have hslash : c ≠ '/' := hne '/' (by decide)
      have hback : c ≠ '\\' := hne '\\' (by decide)
      simp [endsSegment, hslash, hback]
    · rw [List.mem_singleton.1 hc]
      cases kind <;> decide
  · have hcolon : Ascii.toLower ':' = ':' := by decide
    simp [isDoubleDot, hcolon]
  · have hcolon : Ascii.toLower ':' = ':' := by decide
    simp [isSingleDot, hcolon]

theorem drive_letter {text : List Char} (h : isDriveLetter text = true) :
    ∃ a, text.take 1 = [a] ∧ Ascii.isLetter a = true := by
  match text, h with
  | [a, b], h => exact ⟨a, rfl, (Bool.and_eq_true_iff.1 h).1⟩

/-- The slash that ends a segment, if one does. -/
def slashIf (slash : Bool) : List Char := if slash then ['/'] else []

/-- Adding a segment, with the slash after it or at the end of the path. -/
theorem takeSegment_isOpen {path buffer : List Char} (h : IsOpen kind path)
    (hbuffer : ∀ c ∈ buffer, endsSegment kind c = false) (slash : Bool) :
    (∃ front segment, IsOpen kind front ∧ IsSegment kind segment ∧
      takeSegment kind path buffer slash = front ++ segment ++ slashIf slash) ∨
    IsOpen kind (takeSegment kind path buffer slash) := by
  unfold takeSegment
  dsimp only
  cases hdouble : isDoubleDot (Percent.encode inPath buffer) with
  | true => exact .inr (goUp_isOpen h slash)
  | false =>
      cases hsingle : isSingleDot (Percent.encode inPath buffer) with
      | true =>
          right
          show IsOpen kind (if path.getLast? == some '/' then path else path ++ ['/'])
          rw [h.getLast?]
          exact h
      | false =>
          left
          rw [if_neg Bool.false_ne_true, if_neg Bool.false_ne_true]
          split
          · rename_i hdrive
            have hletter := (Bool.and_eq_true_iff.1 hdrive).2
            obtain ⟨a, hfirst, ha⟩ := drive_letter hletter
            refine ⟨path, [a, ':'], h, isSegment_drive ha, ?_⟩
            rw [hfirst, slashIf]
            simp
          · refine ⟨path, _, h, isSegment_encode hbuffer hdouble hsingle, ?_⟩
            rw [addSegment_isOpen h]
            rfl

/-- What starts like a drive letter is not made of dots. -/
theorem isSegment_behind_drive {a : Char} (h : Ascii.isLetter a = true) {segment : List Char}
    (hencoded : Percent.IsEncoded inPath segment)
    (hwhole : ∀ c ∈ segment, endsSegment kind c = false) :
    IsSegment kind ([a, ':'] ++ segment) := by
  have hdrive : IsSegment kind [a, ':'] := isSegment_drive h
  refine ⟨fun c hc => ?_, fun c hc => ?_, ?_, ?_⟩
  · exact (List.mem_append.1 hc).elim (hdrive.encoded c) (hencoded c)
  · exact (List.mem_append.1 hc).elim (hdrive.whole c) (hwhole c)
  · have hcolon : Ascii.toLower ':' = ':' := by decide
    simp [isDoubleDot, hcolon]
  · have hcolon : Ascii.toLower ':' = ':' := by decide
    simp [isSingleDot, hcolon]

/-- The path of a file that ends with a drive letter, which is never left. -/
def EndsWithDrive (kind : Kind) (path : List Char) : Prop :=
  kind = .file ∧ ∃ front a, IsOpen kind front ∧ Ascii.isLetter a = true ∧ path = front ++ [a, ':']

theorem takeSegment_endsWithDrive {path buffer : List Char} (h : EndsWithDrive kind path)
    (hbuffer : ∀ c ∈ buffer, endsSegment kind c = false) (slash : Bool) :
    (∃ front segment, IsOpen kind front ∧ IsSegment kind segment ∧
      takeSegment kind path buffer slash = front ++ segment ++ slashIf slash) ∨
    IsOpen kind (takeSegment kind path buffer slash) := by
  obtain ⟨rfl, front, a, hfront, ha, rfl⟩ := h
  have hdrive : IsSegment .file [a, ':'] := isSegment_drive ha
  have hlast : (front ++ [a, ':']).getLast? = some ':' := by simp
  unfold takeSegment
  dsimp only
  cases hdouble : isDoubleDot (Percent.encode inPath buffer) with
  | true =>
      left
      refine ⟨front, [a, ':'], hfront, hdrive, ?_⟩
      have hstays : dropSegment .file (front ++ [a, ':']) = front ++ [a, ':'] := by
        obtain ⟨segments, -, rfl⟩ := hfront
        have hsegment : lastSegment (slashed segments ++ ['/'] ++ [a, ':']) = [a, ':'] := by
          rw [List.append_assoc]
          exact lastSegment_append hdrive.slash_not_mem
        unfold dropSegment
        rw [hsegment, show isNormalDriveLetter [a, ':'] = (Ascii.isLetter a && true) from rfl, ha]
        rfl
      rw [if_pos rfl]
      unfold goUp
      dsimp only
      rw [hlast, show (some ':' == some '/') = false from rfl, Bool.false_and,
        if_neg Bool.false_ne_true, hstays, ite_self, hlast,
        show (some ':' != some '/') = true from rfl, Bool.and_true]
      cases slash with
      | false => exact (List.append_nil _).symm
      | true => rfl
  | false =>
      cases hsingle : isSingleDot (Percent.encode inPath buffer) with
      | true =>
          right
          rw [if_neg Bool.false_ne_true, if_pos rfl, hlast,
            show (some ':' == some '/') = false from rfl, if_neg Bool.false_ne_true]
          exact hfront.push hdrive
      | false =>
          left
          have hlength : ((front ++ [a, ':']).length == 1) = false := by
            simp
          rw [if_neg Bool.false_ne_true, if_neg Bool.false_ne_true, hlength, Bool.and_false,
            Bool.false_and, if_neg Bool.false_ne_true]
          have hsegment := isSegment_encode hbuffer hdouble hsingle
          unfold addSegment
          cases buffer with
          | nil => exact ⟨front, [a, ':'], hfront, hdrive, rfl⟩
          | cons c rest =>
              dsimp only [List.isEmpty_cons]
              rw [if_neg Bool.false_ne_true]
              split
              · exact ⟨_, _, hfront.push hdrive, hsegment, rfl⟩
              · refine ⟨front, _, hfront,
                  isSegment_behind_drive ha hsegment.encoded hsegment.whole, ?_⟩
                simp [slashIf]

/-- Whatever is read, the path stays in written form. -/
theorem takeSegments_isPath {text : List Char} : ∀ {path buffer : List Char},
    IsOpen kind path ∨ EndsWithDrive kind path → (∀ c ∈ buffer, endsSegment kind c = false) →
      IsPath kind (takeSegments kind path buffer text) := by
  have hsegment : ∀ {path buffer : List Char}, IsOpen kind path ∨ EndsWithDrive kind path →
      (∀ c ∈ buffer, endsSegment kind c = false) → ∀ slash,
      (∃ front segment, IsOpen kind front ∧ IsSegment kind segment ∧
        takeSegment kind path buffer slash = front ++ segment ++ slashIf slash) ∨
      IsOpen kind (takeSegment kind path buffer slash) := by
    intro path buffer h hbuffer slash
    rcases h with hopen | hdrive
    · exact takeSegment_isOpen hopen hbuffer slash
    · exact takeSegment_endsWithDrive hdrive hbuffer slash
  induction text with
  | nil =>
      intro path buffer h hbuffer
      show IsPath kind (takeSegment kind path buffer false)
      rcases hsegment h hbuffer false with ⟨front, segment, hfront, hsegment, heq⟩ | hopen
      · rw [heq]
        unfold slashIf
        rw [if_neg Bool.false_ne_true, List.append_nil]
        exact hfront.append hsegment
      · exact hopen.isPath
  | cons c rest ih =>
      intro path buffer h hbuffer
      show IsPath kind (if endsSegment kind c then _ else _)
      cases hc : endsSegment kind c with
      | true =>
          refine ih (.inl ?_) (by simp)
          rcases hsegment h hbuffer true with ⟨front, segment, hfront, hsegment, heq⟩ | hopen
          · rw [heq]
            exact hfront.push hsegment
          · exact hopen
      | false =>
          refine ih h fun d hd => ?_
          rcases List.mem_append.1 hd with hd | hd
          · exact hbuffer d hd
          · rw [List.mem_singleton.1 hd]
            exact hc

/-! ## Reading a path in its written form -/

/-- A drive letter right behind the root of a file must be in its written form. -/
def DriveStands (kind : Kind) (path segment : List Char) : Prop :=
  kind = .file → path = ['/'] → isDriveLetter segment = true → isNormalDriveLetter segment = true

theorem written_drive {segment : List Char} (h : isNormalDriveLetter segment = true) :
    ∃ a, segment = [a, ':'] := by
  match segment, h with
  | [a, b], h =>
      obtain rfl : b = ':' := eq_of_beq (Bool.and_eq_true_iff.1 h).2
      exact ⟨a, rfl⟩

theorem takeSegment_segment {path segment : List Char} (h : IsOpen kind path)
    (hsegment : IsSegment kind segment) (hdrive : DriveStands kind path segment) (slash : Bool) :
    takeSegment kind path segment slash = path ++ segment ++ slashIf slash := by
  have hsame : Percent.encode inPath segment = segment :=
    Percent.encode_of_isEncoded hsegment.encoded
  unfold takeSegment
  dsimp only
  rw [hsame, hsegment.notDouble, hsegment.notSingle, addSegment_isOpen h, hsame,
    if_neg Bool.false_ne_true, if_neg Bool.false_ne_true]
  split
  · rename_i hletter
    simp only [Bool.and_eq_true, beq_iff_eq] at hletter
    obtain ⟨⟨hkind, hlength⟩, hletter⟩ := hletter
    have hroot : path = ['/'] := by
      obtain ⟨c, rfl⟩ := List.length_eq_one_iff.1 hlength
      have hlast := h.getLast?
      cases hlast
      rfl
    obtain ⟨a, rfl⟩ := written_drive (hdrive hkind hroot hletter)
    unfold slashIf
    simp
  · rfl

/-- Reading goes on to the end of a segment. -/
theorem takeSegments_whole {path : List Char} {segment rest : List Char}
    (h : ∀ c ∈ segment, endsSegment kind c = false) : ∀ buffer,
      takeSegments kind path buffer (segment ++ rest) =
        takeSegments kind path (buffer ++ segment) rest := by
  induction segment with
  | nil =>
      intro buffer
      rw [List.append_nil]
      rfl
  | cons c more ih =>
      intro buffer
      have hc : endsSegment kind c = false := h c List.mem_cons_self
      show (if endsSegment kind c then _ else _) = _
      rw [hc]
      show takeSegments kind path (buffer ++ [c]) (more ++ rest) = _
      rw [ih fun d hd => h d (List.mem_cons_of_mem c hd), List.append_assoc]
      rfl

/-- Segments are added to an open path as they are written. -/
theorem takeSegments_slashed {segments : List (List Char)} : ∀ {path first : List Char},
    IsOpen kind path → IsSegment kind first → (∀ segment ∈ segments, IsSegment kind segment) →
    DriveStands kind path first →
      takeSegments kind path [] (first ++ slashed segments) = path ++ first ++ slashed segments := by
  induction segments with
  | nil =>
      intro path first h hfirst _ hdrive
      rw [show slashed [] = [] from rfl, takeSegments_whole hfirst.whole, List.nil_append]
      exact takeSegment_segment h hfirst hdrive false
  | cons second more ih =>
      intro path first h hfirst hall hdrive
      have hopen : IsOpen kind (path ++ first ++ ['/']) := h.push hfirst
      have hmore := ih hopen (hall second List.mem_cons_self)
        (fun segment hsegment => hall segment (List.mem_cons_of_mem _ hsegment)) ?_
      · rw [takeSegments_whole hfirst.whole, List.nil_append]
        show takeSegments kind (takeSegment kind path first true) [] (second ++ slashed more) = _
        rw [takeSegment_segment h hfirst hdrive, slashIf, if_pos rfl, hmore]
        show _ = path ++ first ++ ('/' :: second ++ slashed more)
        simp
      · -- the path is longer than the root by now
        intro _ hroot
        have hlength := congrArg List.length hroot
        rw [List.length_append, List.length_append] at hlength
        have hpath : 0 < path.length := List.length_pos_iff.2 h.ne_nil
        dsimp only [List.length_cons, List.length_nil] at hlength
        omega

/-! ## Whole paths -/

/-- The path of a file, which does not start with two slashes. -/
def IsFilePath (path : List Char) : Prop :=
  ∃ first segments, IsSegment .file first ∧ (∀ segment ∈ segments, IsSegment .file segment) ∧
    (first = [] → segments = []) ∧ path = slashed (first :: segments)

theorem IsSegment.dropWhile {segment rest : List Char} (h : IsSegment kind segment)
    (hne : segment ≠ []) :
    (segment ++ rest).dropWhile (· == '/') = segment ++ rest := by
  cases segment with
  | nil => exact absurd rfl hne
  | cons c more =>
      have hc : (c == '/') = false := by
        rw [beq_eq_false_iff_ne]
        rintro rfl
        exact h.slash_not_mem List.mem_cons_self
      rw [List.cons_append, List.dropWhile_cons_of_neg (by simp [hc])]

/-- The slashes at the start of a path become one. -/
theorem isFilePath_dropWhile {path : List Char} (h : IsPath .file path) :
    IsFilePath ('/' :: path.dropWhile (· == '/')) := by
  obtain ⟨segments, hall, rfl⟩ := h.all
  induction segments with
  | nil => exact ⟨[], [], isSegment_nil, by simp, fun _ => rfl, rfl⟩
  | cons first rest ih =>
      by_cases hfirst : first = []
      · subst hfirst
        cases rest with
        | nil => exact ⟨[], [], isSegment_nil, by simp, fun _ => rfl, rfl⟩
        | cons second more =>
            have hmore : ∀ segment ∈ second :: more, IsSegment .file segment :=
              fun segment hsegment => hall segment (List.mem_cons_of_mem _ hsegment)
            exact ih hmore (isPath_slashed (by simp) hmore)
      · refine ⟨first, rest, hall first List.mem_cons_self,
          fun segment hsegment => hall segment (List.mem_cons_of_mem _ hsegment),
          fun hnil => absurd hnil hfirst, ?_⟩
        show '/' :: ('/' :: (first ++ slashed rest)).dropWhile (· == '/') = '/' :: _
        rw [List.dropWhile_cons_of_pos rfl, (hall first List.mem_cons_self).dropWhile hfirst]
        rfl

/-- The whole path of a URL. -/
def IsWhole (kind : Kind) (path : List Char) : Prop :=
  match kind with
  | .file => IsFilePath path
  | kind => IsPath kind path

theorem IsWhole.isPath {path : List Char} (h : IsWhole kind path) : IsPath kind path := by
  cases kind with
  | file =>
      obtain ⟨first, segments, hfirst, hall, -, rfl⟩ := h
      exact ⟨first, segments, hfirst, hall, rfl⟩
  | special => exact h
  | other => exact h

theorem IsFilePath.isPath {path : List Char} (h : IsFilePath path) : IsPath .file path :=
  IsWhole.isPath (show IsWhole .file path from h)

theorem extendPath_isWhole {path : List Char} (h : IsOpen kind path ∨ EndsWithDrive kind path)
    (text : List Char) : IsWhole kind (extendPath kind path text) := by
  have hpath : IsPath kind (takeSegments kind path [] text) := takeSegments_isPath h (by simp)
  cases kind with
  | file => exact isFilePath_dropWhile hpath
  | special => exact hpath
  | other => exact hpath

/-- A slash at the start of a path is its root. -/
theorem extendPath_nil {c : Char} (h : endsSegment kind c = true) (rest : List Char) :
    extendPath kind [] (c :: rest) = extendPath kind ['/'] rest := by
  have hroot : takeSegment kind [] [] true = ['/'] := by cases kind <;> rfl
  have htake : takeSegments kind [] [] (c :: rest) = takeSegments kind ['/'] [] rest := by
    show (if endsSegment kind c then _ else _) = _
    rw [h, if_pos rfl, hroot]
  unfold extendPath
  dsimp only
  rw [htake]

theorem pathFromStart_isWhole {text : List Char} (h : kind.isSpecial = true ∨ text ≠ []) :
    IsWhole kind (pathFromStart kind text) := by
  have hroot : ∀ text, IsWhole kind (extendPath kind ['/'] text) :=
    extendPath_isWhole (.inl isOpen_root)
  unfold pathFromStart
  split
  · split
    · exact hroot _
    · exact hroot _
  · rename_i hspecial
    split
    · rcases h with h | h
      · exact absurd h hspecial
      · exact absurd rfl h
    · rw [extendPath_nil rfl]
      exact hroot _
    · exact hroot _

/-- A path in its written form is read back as it is. -/
theorem extendPath_slashed {first : List Char} {segments : List (List Char)}
    (hfirst : IsSegment kind first) (hall : ∀ segment ∈ segments, IsSegment kind segment)
    (hdrive : DriveStands kind ['/'] first) (hfile : kind = .file → first = [] → segments = []) :
    extendPath kind ['/'] (first ++ slashed segments) = slashed (first :: segments) := by
  have htake : takeSegments kind ['/'] [] (first ++ slashed segments) =
      '/' :: (first ++ slashed segments) := takeSegments_slashed isOpen_root hfirst hall hdrive
  unfold extendPath
  dsimp only
  rw [htake]
  split
  · rename_i hkind
    rw [List.dropWhile_cons_of_pos rfl]
    by_cases hnil : first = []
    · rw [hfile (eq_of_beq hkind) hnil, hnil]
      rfl
    · rw [hfirst.dropWhile hnil]
      rfl
  · rfl

theorem pathFromStart_slashed {first : List Char} {segments : List (List Char)}
    (hfirst : IsSegment kind first) (hall : ∀ segment ∈ segments, IsSegment kind segment)
    (hdrive : DriveStands kind ['/'] first) (hfile : kind = .file → first = [] → segments = []) :
    pathFromStart kind (slashed (first :: segments)) = slashed (first :: segments) := by
  have hback := extendPath_slashed hfirst hall hdrive hfile
  unfold pathFromStart
  split
  · exact hback
  · show extendPath kind [] ('/' :: (first ++ slashed segments)) = _
    rw [extendPath_nil rfl]
    exact hback

/-- Without its last segment a path can be extended. -/
theorem dropSegment_isBase {path : List Char} (h : IsPath kind path) :
    IsOpen kind (dropSegment kind path) ∨ EndsWithDrive kind (dropSegment kind path) := by
  obtain ⟨first, rest, hfirst, hrest, rfl⟩ := h
  obtain ⟨front, last, hsplit⟩ : ∃ front last, first :: rest = front ++ [last] :=
    ⟨_, _, (List.dropLast_concat_getLast (List.cons_ne_nil first rest)).symm⟩
  have hall : ∀ segment ∈ front ++ [last], IsSegment kind segment := by
    intro segment hsegment
    rw [← hsplit] at hsegment
    rcases List.mem_cons.1 hsegment with rfl | hsegment
    · exact hfirst
    · exact hrest segment hsegment
  have hlast : '/' ∉ last := (hall last (by simp)).slash_not_mem
  have hfront : IsOpen kind (slashed front ++ ['/']) :=
    ⟨front, fun segment hsegment => hall segment (by simp [hsegment]), rfl⟩
  rw [hsplit, slashed_snoc]
  unfold dropSegment
  rw [lastSegment_append hlast]
  split
  · rename_i hdrive
    obtain ⟨hkind, hdrive⟩ := Bool.and_eq_true_iff.1 hdrive
    obtain ⟨a, rfl⟩ := written_drive hdrive
    refine .inr ⟨eq_of_beq hkind, slashed front ++ ['/'], a, hfront, ?_, by simp⟩
    exact (Bool.and_eq_true_iff.1 hdrive).1
  · rw [dropLastSegment hlast]
    exact .inl hfront

theorem driveOf?_endsWithDrive {path drive : List Char} (h : driveOf? path = some drive) :
    EndsWithDrive .file ('/' :: drive) := by
  unfold driveOf? at h
  dsimp only at h
  split at h
  · rename_i hdrive
    cases h
    obtain ⟨a, ha⟩ := written_drive hdrive
    rw [ha] at hdrive ⊢
    exact ⟨rfl, ['/'], a, isOpen_root, (Bool.and_eq_true_iff.1 hdrive).1, rfl⟩
  · cases h

end Url

end SchemaGraph

import ConfigGraph.Proofs.Path
import ConfigGraph.Proofs.Text.Row

/-!
# Places

A place is what an absolute path leads to: the segments from the root down to it.  A path leads there
step by step, one for each of its segments, and its normal form spells the place with nothing else.
So a path in normal form is the only one of its root for its place.
-/

namespace ConfigGraph

/-! ## Segments -/

namespace Text

variable {separator : CodePoint}

theorem splitOn_eq (separator : CodePoint) (text : Text) :
    splitOn separator text = List.splitOn separator text := by
  induction text with
  | nil => rfl
  | cons code text induction =>
      rw [splitOn, List.splitOn_cons_eq_if_modifyHead, induction]
      by_cases isSeparator : code = separator
      · simp [isSeparator]
      · cases pieces : List.splitOn separator text with
        | nil => exact absurd pieces (List.splitOn_ne_nil separator text)
        | cons piece pieces => simp [isSeparator]

/-- The pieces of a text that is cut at a separator. -/
theorem splitOn_append_cons (separator : CodePoint) (left right : Text) :
    splitOn separator (left ++ separator :: right) =
      splitOn separator left ++ splitOn separator right := by
  simp only [splitOn_eq]
  exact List.splitOn_append_cons_self left right

theorem splitOn_of_notMem {text : Text} (absent : separator ∉ text) :
    splitOn separator text = [text] := by
  rw [splitOn_eq]
  exact List.splitOn_eq_singleton absent

theorem splitOn_join {texts : List Text} (nonempty : texts ≠ [])
    (absent : ∀ text ∈ texts, separator ∉ text) :
    splitOn separator (join [separator] texts) = texts := by
  rw [splitOn_eq]
  exact List.splitOn_intercalate separator absent nonempty

theorem notMem_of_mem_splitOn {text piece : Text} (member : piece ∈ splitOn separator text) :
    separator ∉ piece := by
  induction text generalizing piece with
  | nil => simp_all [splitOn]
  | cons code text induction =>
      rw [splitOn] at member
      split at member
      case isTrue =>
        rcases List.mem_cons.mp member with rfl | later
        · exact List.not_mem_nil
        · exact induction later
      case isFalse isOther =>
        split at member
        case h_1 =>
          cases List.mem_singleton.mp member
          simpa using Ne.symm isOther
        case h_2 first pieces split =>
          rw [split] at induction
          rcases List.mem_cons.mp member with rfl | later
          · simpa [Ne.symm isOther] using induction List.mem_cons_self
          · exact induction (List.mem_cons_of_mem _ later)

end Text

namespace Path

/-! ## Walking -/

/-- One segment further from a place.  There is nothing above the root. -/
def step (place : List Text) (segment : Text) : List Text :=
  if segment = [] ∨ segment = ("." : Text) then place
  else if segment = (".." : Text) then place.dropLast
  else place ++ [segment]

/-- Where segments lead from a place. -/
def follow (place segments : List Text) : List Text := segments.foldl step place

/-- The place to which an absolute path leads. -/
def place (path : Text) : List Text := follow [] (segments path)

/-- The path that spells a place with the segments of the place alone. -/
def spell (place : List Text) : Text := slash :: Text.join [slash] place

/-- A segment that goes down. -/
structure Descends (segment : Text) : Prop where
  nonempty : segment ≠ []
  notDot : segment ≠ ("." : Text)
  notDots : segment ≠ (".." : Text)
  noSlash : slash ∉ segment

/-- Segments that lead to a place: all of them go down. -/
def IsPlace (place : List Text) : Prop := ∀ segment ∈ place, Descends segment

variable {path segment : Text} {start more : List Text}

theorem isPlace_nil : IsPlace [] := List.forall_mem_nil _

theorem step_of_descends (descends : Descends segment) (place : List Text) :
    step place segment = place ++ [segment] := by
  simp [step, descends.nonempty, descends.notDot, descends.notDots]

theorem isPlace_step (isPlace : IsPlace start) (noSlash : slash ∉ segment) :
    IsPlace (step start segment) := by
  unfold step
  split_ifs with stays up
  · exact isPlace
  · intro other member
    exact isPlace other (List.dropLast_subset _ member)
  · rw [not_or] at stays
    intro other member
    rcases List.mem_append.mp member with before | isLast
    · exact isPlace other before
    · rw [List.mem_singleton.mp isLast]
      exact ⟨stays.1, stays.2, up, noSlash⟩

theorem follow_append (start first second : List Text) :
    follow start (first ++ second) = follow (follow start first) second :=
  List.foldl_append

/-- Empty segments lead nowhere. -/
theorem follow_replicate_nil (start : List Text) (count : Nat) :
    follow start (List.replicate count []) = start := by
  induction count with
  | zero => rfl
  | succ count induction => simpa [follow, List.replicate_succ, step] using induction

theorem isPlace_follow (isPlace : IsPlace start) (noSlash : ∀ segment ∈ more, slash ∉ segment) :
    IsPlace (follow start more) := by
  induction more generalizing start with
  | nil => exact isPlace
  | cons segment more induction =>
      obtain ⟨first, others⟩ := List.forall_mem_cons.mp noSlash
      exact induction (isPlace_step isPlace first) others

theorem follow_of_isPlace (isPlace : IsPlace more) (start : List Text) :
    follow start more = start ++ more := by
  induction more generalizing start with
  | nil => simp [follow]
  | cons segment more induction =>
      obtain ⟨first, others⟩ := List.forall_mem_cons.mp isPlace
      have next := induction others (start ++ [segment])
      simpa [follow, step_of_descends first] using next

theorem noSlash_of_mem_segments (member : segment ∈ segments path) : slash ∉ segment :=
  Text.notMem_of_mem_splitOn member

theorem isPlace_place (path : Text) : IsPlace (place path) :=
  isPlace_follow isPlace_nil fun _ member => noSlash_of_mem_segments member

theorem enter_reverse (isPlace : IsPlace start) (segment : Text) :
    enter true start.reverse segment = (step start segment).reverse := by
  unfold enter step
  by_cases stays : segment = [] ∨ segment = ("." : Text)
  · rw [if_pos stays, if_pos stays]
  · rw [if_neg stays, if_neg stays]
    by_cases up : segment = (".." : Text)
    · rw [if_pos up, if_pos up]
      -- The innermost segment goes down, so the way up undoes it.
      rcases List.eq_nil_or_concat start with rfl | ⟨outer, innermost, rfl⟩
      · rfl
      · have descends := isPlace innermost (by simp)
        simp [up, descends.notDots]
    · rw [if_neg up, if_neg up, List.reverse_append]
      rfl

/-- A walk below a root goes where the segments lead. -/
theorem foldl_enter (isPlace : IsPlace start) (noSlash : ∀ segment ∈ more, slash ∉ segment) :
    more.foldl (enter true) start.reverse = (follow start more).reverse := by
  induction more generalizing start with
  | nil => rfl
  | cons segment more induction =>
      obtain ⟨first, others⟩ := List.forall_mem_cons.mp noSlash
      rw [List.foldl_cons, enter_reverse isPlace]
      exact induction (isPlace_step isPlace first) others

theorem walk_eq_place (absolute : isAbsolute path = true) : walk path = place path := by
  have walked := foldl_enter isPlace_nil fun segment (member : segment ∈ segments path) =>
    noSlash_of_mem_segments member
  rw [List.reverse_nil] at walked
  rw [walk, absolute, walked, List.reverse_reverse]
  rfl

/-! ## Roots -/

/-- Whether a path starts with exactly two slashes, which are a root of their own. -/
def isDoubled (path : Text) : Bool := (path.takeWhile (· == slash)).length == 2

theorem root_eq_of_not_isDoubled (absolute : isAbsolute path = true)
    (single : isDoubled path = false) : root path = [slash] := by
  obtain ⟨rest, rfl⟩ := eq_cons_of_isAbsolute absolute
  unfold isDoubled at single
  unfold root
  rw [List.takeWhile_cons] at single ⊢
  simp only [beq_self_eq_true, if_true, List.length_cons] at single ⊢
  split
  case h_1 isZero => cases isZero
  case h_2 isTwo => simp [isTwo] at single
  case h_3 => rfl

theorem root_cases (absolute : isAbsolute path = true) :
    root path = [slash] ∨ root path = [slash, slash] := by
  obtain ⟨rest, rfl⟩ := eq_cons_of_isAbsolute absolute
  unfold root
  rw [List.takeWhile_cons]
  simp only [beq_self_eq_true, if_true, List.length_cons]
  split
  case h_1 isZero => cases isZero
  case h_2 => exact .inr rfl
  case h_3 => exact .inl rfl

theorem join_cons_append (segment : Text) (others : List Text) :
    ∃ rest, Text.join [slash] (segment :: others) = segment ++ rest := by
  cases others with
  | nil => exact ⟨[], by simp [Text.join]⟩
  | cons other others =>
      refine ⟨[slash] ++ Text.join [slash] (other :: others), ?_⟩
      rw [Text.join, List.intercalate_cons_cons, List.append_assoc]
      rfl

/-- No slash comes before the segments of a place. -/
theorem stops_join (isPlace : IsPlace start) :
    Stops (· == slash) (Text.join [slash] start) := by
  intro code rest same
  cases start with
  | nil => cases same
  | cons segment others =>
      have descends := isPlace segment List.mem_cons_self
      obtain ⟨more, joined⟩ := join_cons_append segment others
      obtain ⟨first, segmentRest, rfl⟩ := List.exists_cons_of_ne_nil descends.nonempty
      rw [joined, List.cons_append] at same
      cases same
      have noSlash := descends.noSlash
      simp only [List.mem_cons, not_or] at noSlash
      exact beq_eq_false_iff_ne.mpr (Ne.symm noSlash.1)

/-- The root in front of a place is the root of the whole. -/
theorem takeWhile_slash_append {slashes : Text} (all : ∀ code ∈ slashes, (code == slash) = true)
    (isPlace : IsPlace start) :
    (slashes ++ Text.join [slash] start).takeWhile (· == slash) = slashes :=
  (stops_join isPlace).takeWhile_append all

/-! ## Normal forms -/

/-- A slash at the start of a path leads nowhere. -/
theorem place_slash_cons (path : Text) : place (slash :: path) = place path := by
  have segmented := Text.splitOn_append_cons slash [] path
  rw [List.nil_append] at segmented
  rw [place, segments, segmented, follow_append]
  rfl

/-- The normal form of an absolute path is its root in front of its place. -/
theorem normalize_of_isAbsolute (absolute : isAbsolute path = true) :
    normalize path = root path ++ Text.join [slash] (place path) := by
  rw [normalize, walk_eq_place absolute]
  rcases root_cases absolute with single | double
  · rw [single]
    rfl
  · rw [double]
    rfl

theorem isAbsolute_normalize (absolute : isAbsolute path = true) :
    isAbsolute (normalize path) = true := by
  rw [normalize_of_isAbsolute absolute]
  rcases root_cases absolute with single | double
  · rw [single]
    rfl
  · rw [double]
    rfl

theorem normalize_eq_spell (absolute : isAbsolute path = true) (single : isDoubled path = false) :
    normalize path = spell (place path) := by
  rw [normalize_of_isAbsolute absolute, root_eq_of_not_isDoubled absolute single]
  rfl

theorem isAbsolute_spell (start : List Text) : isAbsolute (spell start) = true := rfl

theorem isDoubled_spell (isPlace : IsPlace start) : isDoubled (spell start) = false := by
  have whole := @takeWhile_slash_append start [slash] (by simp) isPlace
  rw [isDoubled, spell, ← List.singleton_append, whole]
  rfl

theorem place_join (isPlace : IsPlace start) : place (Text.join [slash] start) = start := by
  cases start with
  | nil => rfl
  | cons segment others =>
      rw [place, segments, Text.splitOn_join (List.cons_ne_nil _ _)
        fun other member => (isPlace other member).noSlash]
      exact follow_of_isPlace isPlace []

theorem place_spell (isPlace : IsPlace start) : place (spell start) = start := by
  rw [spell, place_slash_cons, place_join isPlace]

/-- Different places are spelled differently. -/
theorem spell_inj {first second : List Text} (firstPlace : IsPlace first)
    (secondPlace : IsPlace second) : spell first = spell second ↔ first = second := by
  refine ⟨fun same => ?_, congrArg spell⟩
  rw [← place_spell firstPlace, same, place_spell secondPlace]

theorem normalize_spell (isPlace : IsPlace start) : normalize (spell start) = spell start := by
  rw [normalize_eq_spell (isAbsolute_spell start) (isDoubled_spell isPlace), place_spell isPlace]

/-- A root in front of a place is a path in normal form. -/
theorem root_append_join (absolute : isAbsolute path = true) (isPlace : IsPlace start) :
    root (root path ++ Text.join [slash] start) = root path := by
  rcases root_cases absolute with single | double
  · rw [single, root, takeWhile_slash_append (by simp) isPlace]
    rfl
  · rw [double, root, takeWhile_slash_append (by simp) isPlace]
    rfl

theorem place_root_append (absolute : isAbsolute path = true) (isPlace : IsPlace start) :
    place (root path ++ Text.join [slash] start) = start := by
  rcases root_cases absolute with single | double
  · rw [single, List.singleton_append, place_slash_cons, place_join isPlace]
  · rw [double, List.cons_append, List.singleton_append, place_slash_cons, place_slash_cons,
      place_join isPlace]

theorem normalize_normalize (absolute : isAbsolute path = true) :
    normalize (normalize path) = normalize path := by
  rw [normalize_of_isAbsolute (isAbsolute_normalize absolute), normalize_of_isAbsolute absolute,
    root_append_join absolute (isPlace_place path), place_root_append absolute (isPlace_place path)]

/-- An absolute path in normal form. -/
structure IsNormal (path : Text) : Prop where
  absolute : isAbsolute path = true
  normal : normalize path = path

theorem isNormal_normalize (absolute : isAbsolute path = true) : IsNormal (normalize path) :=
  ⟨isAbsolute_normalize absolute, normalize_normalize absolute⟩

theorem isNormal_spell (isPlace : IsPlace start) : IsNormal (spell start) :=
  ⟨isAbsolute_spell start, normalize_spell isPlace⟩

/-- A path in normal form is the same from every directory. -/
theorem absolute_of_isNormal (directory : Text) (isNormal : IsNormal path) :
    absolute directory path = path := by
  rw [absolute_of_isAbsolute directory isNormal.absolute, isNormal.normal]

/-! ## Directories -/

theorem segments_append_slashes (path : Text) (count : Nat) :
    segments (path ++ List.replicate count slash) = segments path ++ List.replicate count [] := by
  induction count generalizing path with
  | zero => simp
  | succ count induction =>
      have cut := Text.splitOn_append_cons slash path (List.replicate count slash)
      have rest := induction []
      rw [List.nil_append] at rest
      rw [List.replicate_succ, segments, cut, ← segments, ← segments, rest]
      rfl

/-- Slashes at the end of a path lead nowhere. -/
theorem place_append_slashes (path : Text) (count : Nat) :
    place (path ++ List.replicate count slash) = place path := by
  rw [place, segments_append_slashes, follow_append, follow_replicate_nil]
  rfl

/-- The slashes at the end of a path are cut off. -/
theorem exists_trimSlashes_append (path : Text) :
    ∃ count, path = trimSlashes path ++ List.replicate count slash := by
  refine ⟨(path.reverse.takeWhile (· == slash)).length, ?_⟩
  have allSlashes : path.reverse.takeWhile (· == slash) =
      List.replicate (path.reverse.takeWhile (· == slash)).length slash := by
    apply List.eq_replicate_of_mem
    intro code member
    exact beq_iff_eq.mp (List.mem_takeWhile_imp (p := (· == slash)) member)
  rw [trimSlashes, ← List.reverse_replicate, ← allSlashes, ← List.reverse_append,
    List.takeWhile_append_dropWhile, List.reverse_reverse]

theorem place_trimSlashes (path : Text) : place (trimSlashes path) = place path := by
  obtain ⟨count, whole⟩ := exists_trimSlashes_append path
  rw [whole, place_append_slashes, ← whole]

/-- An absolute path has a last slash. -/
theorem exists_last_slash (absolute : isAbsolute path = true) :
    ∃ before last, path = before ++ slash :: last ∧ slash ∉ last := by
  obtain ⟨rest, rfl⟩ := eq_cons_of_isAbsolute absolute
  have member : slash ∈ (slash :: rest).reverse := by simp
  obtain ⟨last, before, split, noSlash⟩ := List.eq_append_cons_of_mem member
  refine ⟨before.reverse, last.reverse, ?_, by simpa using noSlash⟩
  rw [← List.reverse_reverse (slash :: rest), split]
  simp

/-- The directory of a path is what comes before its last slash, without the slashes at the end.
Where nothing else comes before, it is the slashes. -/
theorem parent_append (before : Text) {last : Text} (noSlash : slash ∉ last) :
    parent (before ++ slash :: last) =
      if before.all (· == slash) then before ++ [slash] else trimSlashes before := by
  have passed : last.reverse.dropWhile (· != slash) = [] := by
    rw [List.dropWhile_eq_nil_iff]
    intro code member
    rw [bne_iff_ne]
    rintro rfl
    exact noSlash (List.mem_reverse.mp member)
  have leading : ((before ++ slash :: last).reverse.dropWhile (· != slash)).reverse =
      before ++ [slash] := by
    rw [List.reverse_append, List.reverse_cons, List.append_assoc, List.dropWhile_append, passed]
    simp
  rw [parent, leading]
  simp [trimSlashes]

/-- The directory of a path leads where all segments but the last lead. -/
theorem place_parent (absolute : isAbsolute path = true) :
    place (parent path) = follow [] (segments path).dropLast := by
  obtain ⟨before, last, rfl, noSlash⟩ := exists_last_slash absolute
  have cut := Text.splitOn_append_cons slash before last
  rw [Text.splitOn_of_notMem noSlash] at cut
  rw [segments, cut, List.dropLast_concat, parent_append before noSlash]
  split_ifs
  · exact place_append_slashes before 1
  · exact place_trimSlashes before

theorem eq_append_slash_of_getLast? (ends : path.getLast? = some slash) :
    ∃ before, path = before ++ [slash] :=
  List.getLast?_eq_some_iff.mp ends

/-- A relative path leads on from its directory. -/
theorem place_join_of_relative (directory : Text) (relative : isAbsolute path = false) :
    place (Path.join directory path) = follow (place directory) (segments path) := by
  unfold Path.join
  rw [if_neg (by simp [relative])]
  split_ifs with atSlash
  · rcases atSlash with rfl | ends
    · rfl
    · obtain ⟨before, rfl⟩ := eq_append_slash_of_getLast? ends
      have same : place (before ++ [slash]) = place before := place_append_slashes before 1
      rw [List.append_assoc, List.singleton_append, same, place, segments,
        Text.splitOn_append_cons, follow_append]
      rfl
  · rw [place, segments, Text.splitOn_append_cons, follow_append]
    rfl

/-! ## Slashes at the start -/

theorem takeWhile_slash_of_not_all (rest : Text) (other : path.all (· == slash) = false) :
    (path ++ rest).takeWhile (· == slash) = path.takeWhile (· == slash) := by
  rw [List.takeWhile_append, if_neg]
  intro sameLength
  have same := (List.takeWhile_prefix _).eq_of_length sameLength
  rw [List.takeWhile_eq_self_iff, ← List.all_eq_true] at same
  simp [same] at other

theorem takeWhile_slash_of_all (all : path.all (· == slash) = true) {rest : Text}
    (relative : isAbsolute rest = false) :
    (path ++ rest).takeWhile (· == slash) = path := by
  have stops : Stops (· == slash) rest := by
    rintro code others rfl
    simpa [isAbsolute] using relative
  exact stops.takeWhile_append (List.all_eq_true.mp all)

/-- The directory of an absolute path has the same root. -/
theorem isDoubled_parent (absolute : isAbsolute path = true) :
    isDoubled (parent path) = isDoubled path := by
  obtain ⟨before, last, rfl, noSlash⟩ := exists_last_slash absolute
  have relative : isAbsolute last = false := by
    cases last with
    | nil => rfl
    | cons code last =>
        rw [List.mem_cons, not_or] at noSlash
        simpa [isAbsolute] using Ne.symm noSlash.1
  unfold isDoubled
  rw [parent_append before noSlash]
  split_ifs with all
  · have allSlashes : (before ++ [slash]).all (· == slash) = true := by simp [all]
    have whole := takeWhile_slash_of_all allSlashes relative
    rw [List.append_assoc, List.singleton_append] at whole
    rw [whole, List.takeWhile_eq_self_iff.mpr (List.all_eq_true.mp allSlashes)]
  · rw [Bool.not_eq_true] at all
    obtain ⟨count, whole⟩ := exists_trimSlashes_append before
    have other : (trimSlashes before).all (· == slash) = false := by
      rw [whole, List.all_append] at all
      simpa using all
    rw [takeWhile_slash_of_not_all _ all, whole, takeWhile_slash_of_not_all _ other, ← whole]

/-- What lies below a directory has the same root. -/
theorem isDoubled_join {directory : Text} (absolute : isAbsolute directory = true)
    (relative : isAbsolute path = false) :
    isDoubled (Path.join directory path) = isDoubled directory := by
  unfold isDoubled Path.join
  rw [if_neg (by simp [relative])]
  cases all : directory.all (· == slash) with
  | true =>
      have atSlash : directory = [] ∨ directory.getLast? = some slash := by
        rcases List.eq_nil_or_concat directory with rfl | ⟨before, last, rfl⟩
        · exact .inl rfl
        · simp_all
      rw [if_pos atSlash, takeWhile_slash_of_all all relative,
        List.takeWhile_eq_self_iff.mpr (List.all_eq_true.mp all)]
  | false =>
      split_ifs
      · rw [takeWhile_slash_of_not_all _ all]
      · rw [takeWhile_slash_of_not_all _ all]

/-! ## Paths in documents -/

/-- The place to which a path in a document leads: from the root if it is absolute, and from the
directory of the document otherwise. -/
def destination (base written : Text) : List Text :=
  follow (if isAbsolute written then [] else follow [] (segments base).dropLast) (segments written)

theorem isPlace_destination (base written : Text) : IsPlace (destination base written) := by
  refine isPlace_follow ?_ fun _ member => noSlash_of_mem_segments member
  split_ifs
  · exact isPlace_nil
  · exact isPlace_follow isPlace_nil fun _ member =>
      noSlash_of_mem_segments (List.dropLast_subset _ member)

/-- A path in a document is brought into the form that spells its destination. -/
theorem absolute_parent_eq_spell {base written : Text} (absolute : isAbsolute base = true)
    (single : isDoubled base = false) (writtenSingle : isDoubled written = false) :
    Path.absolute (parent base) written = spell (destination base written) := by
  unfold Path.absolute destination
  cases isRooted : isAbsolute written with
  | true =>
      rw [Path.join, if_pos isRooted, normalize_eq_spell isRooted writtenSingle, if_pos rfl]
      rfl
  | false =>
      have joined := isAbsolute_join (isAbsolute_parent absolute) written
      have sameRoot : isDoubled (Path.join (parent base) written) = false := by
        rw [isDoubled_join (isAbsolute_parent absolute) isRooted, isDoubled_parent absolute, single]
      rw [normalize_eq_spell joined sameRoot, place_join_of_relative _ isRooted,
        place_parent absolute, if_neg Bool.false_ne_true]

/-- Steps up stop at the root. -/
example : destination "/work/a.cairn" ".././/../../b/./c.cairn" =
    [("b" : Text), ("c.cairn" : Text)] := by
  decide

end Path

end ConfigGraph

import Mathlib.Data.List.DropRight
import RepoAudit.Host.Request
import RepoAudit.Proofs.Bytes.Percent

/-!
# What addresses tell

The address of a question is the base, then the fixed names of the question and its arguments as segments, and for a
tree a query. Whoever takes the part after the base asunder finds each argument as it was given (`Locator.read`): no
argument adds a segment, a query or a fragment. So the questions of one address are the same up to the slashes that the
path of a file begins with.
-/

namespace RepoAudit.Host

/-- The names and the arguments of a question in the order of its address. The path of a file counts piece by piece,
from its first character on that is no slash. -/
def Question.segments : Question → List (List Char)
  | .repository owner name => ["repos".toList, owner.toList, name.toList]
  | .languages owner name => ["repos".toList, owner.toList, name.toList, "languages".toList]
  | .tree owner name ref => ["repos".toList, owner.toList, name.toList, "git".toList, "trees".toList, ref.toList]
  | .file owner name path =>
    "repos".toList :: owner.toList :: name.toList :: "contents".toList ::
      Text.splitOn '/' (path.toList.dropWhile (· == '/'))

/-- The query of a question. -/
def Question.query? : Question → Option (List Char)
  | .tree _ _ _ => some "recursive=1".toList
  | _ => none

/-- The question without slashes before the path of a file. -/
def Question.trimmed : Question → Question
  | .file owner name path => .file owner name (String.ofList (path.toList.dropWhile (· == '/')))
  | question => question

/-- What stands in an address after its base: the texts of the segments, the query and the fragment. -/
structure Locator where
  segments : List (List Char)
  query : Option (List Char)
  fragment : Option (List Char)
  deriving DecidableEq

/-- The text before a mark, and the text after it if the mark is there. -/
def cutAt (mark : Char) (s : List Char) : List Char × Option (List Char) :=
  (s.takeWhile (· != mark), (s.dropWhile (· != mark)).tail?)

/-- Takes the part of an address after the base asunder. -/
def Locator.read (s : List Char) : Locator :=
  let (rest, fragment) := cutAt '#' s
  let (path, query) := cutAt '?' rest
  ⟨(Text.splitOn '/' path).map Percent.decode, query, fragment⟩

/-! ### The part after the base -/

/-- The fixed names stand for themselves. -/
lemma written_names : ∀ name ∈ ["repos", "languages", "git", "trees", "contents"],
    Percent.written name.toList = name.toList := by decide

/-- Segments with a slash before each. -/
def slashed (segments : List (List Char)) : List Char := segments.flatMap fun segment => '/' :: Percent.written segment

lemma slashed_cons (segment : List Char) (segments : List (List Char)) :
    slashed (segment :: segments) = '/' :: (Percent.written segment ++ slashed segments) :=
  rfl

lemma slashed_name {name : String} (known : name ∈ ["repos", "languages", "git", "trees", "contents"])
    (segments : List (List Char)) : slashed (name.toList :: segments) = '/' :: (name.toList ++ slashed segments) := by
  rw [slashed_cons, written_names name known]

/-- Segments with a slash before each are those of a path that begins with a slash. -/
lemma slashed_eq {segments : List (List Char)} (any : segments ≠ []) :
    slashed segments = '/' :: ['/'].intercalate (segments.map Percent.written) := by
  induction segments with
  | nil => exact absurd rfl any
  | cons first rest ih =>
    cases rest with
    | nil => simp [slashed]
    | cons second rest =>
      rw [slashed_cons, ih (List.cons_ne_nil _ _), List.map_cons, List.map_cons, List.map_cons,
        List.intercalate_cons_cons, List.append_assoc, List.singleton_append]

/-- The part of an address after the base has the segments, and the query if there is one. -/
lemma toList_path (question : Question) :
    question.path.toList = slashed question.segments ++ question.query?.elim [] ('?' :: ·) := by
  have repos (rest : List (List Char)) : slashed ("repos".toList :: rest) = '/' :: ("repos".toList ++ slashed rest) :=
    slashed_name (by decide) rest
  cases question with
  | repository owner name =>
    rw [Question.segments, repos, slashed_cons, slashed_cons]
    simp [Question.path, repositoryPath, Question.query?, Percent.toList_segment, slashed]
  | languages owner name =>
    rw [Question.segments, repos, slashed_cons, slashed_cons, slashed_name (by decide)]
    simp [Question.path, repositoryPath, Question.query?, Percent.toList_segment, slashed]
  | tree owner name ref =>
    rw [Question.segments, repos, slashed_cons, slashed_cons, slashed_name (by decide), slashed_name (by decide),
      slashed_cons]
    simp [Question.path, repositoryPath, Question.query?, Percent.toList_segment, slashed]
  | file owner name path =>
    have pieces := slashed_eq (Text.splitOn_ne_nil '/' (path.toList.dropWhile (· == '/')))
    rw [Question.segments, repos, slashed_cons, slashed_cons, slashed_name (by decide), pieces, ← Percent.toList_path]
    simp [Question.path, repositoryPath, Question.query?, Percent.toList_segment]

/-! ### Taking addresses asunder -/

lemma takeWhile_ne {mark : Char} {s : List Char} (absent : mark ∉ s) : ∀ c ∈ s, (c != mark) = true := by
  rintro c member
  rw [bne_iff_ne]
  rintro rfl
  exact absent member

lemma cutAt_of_notMem {mark : Char} {s : List Char} (absent : mark ∉ s) : cutAt mark s = (s, none) := by
  have others := takeWhile_ne absent
  rw [cutAt, List.takeWhile_eq_self_iff.mpr others, List.dropWhile_eq_nil_iff.mpr others]
  rfl

lemma cutAt_append {mark : Char} {s : List Char} (absent : mark ∉ s) (rest : List Char) :
    cutAt mark (s ++ mark :: rest) = (s, some rest) := by
  have others := takeWhile_ne absent
  rw [cutAt, List.takeWhile_append_of_pos others, List.dropWhile_append_of_pos others]
  simp

lemma notMem_slashed {c : Char} (other : Percent.isSegmentChar c = false) (slash : c ≠ '/')
    (segments : List (List Char)) : c ∉ slashed segments := by
  intro member
  obtain ⟨segment, -, member⟩ := List.mem_flatMap.mp member
  rcases List.mem_cons.mp member with same | member
  · exact slash same
  · exact Percent.notMem_written other segment member

lemma splitOn_slashed {segments : List (List Char)} (any : segments ≠ []) :
    Text.splitOn '/' (slashed segments) = [] :: segments.map Percent.written := by
  rw [slashed_eq any, Text.splitOn_separator, Text.splitOn_intercalate]
  · simpa using any
  · intro piece member
    obtain ⟨segment, -, rfl⟩ := List.mem_map.mp member
    exact Percent.notMem_written rfl segment

lemma Question.segments_ne_nil (question : Question) : question.segments ≠ [] := by
  cases question <;> exact List.cons_ne_nil _ _

lemma read_path (question : Question) :
    Locator.read question.path.toList = ⟨[] :: question.segments, question.query?, none⟩ := by
  have plain : '#' ∉ question.path.toList := by
    rw [toList_path, List.mem_append, not_or]
    refine ⟨notMem_slashed rfl (by decide) _, ?_⟩
    cases question <;> simp [Question.query?]
  have cut : cutAt '?' question.path.toList = (slashed question.segments, question.query?) := by
    have absent := notMem_slashed (c := '?') rfl (by decide) question.segments
    rw [toList_path]
    cases question.query? with
    | none => rw [Option.elim_none, List.append_nil, cutAt_of_notMem absent]
    | some query => exact cutAt_append absent query
  have decoded : question.segments.map (Percent.decode ∘ Percent.written) = question.segments :=
    List.map_id'' Percent.decode_written _
  rw [Locator.read, cutAt_of_notMem plain]
  simp only [cut, splitOn_slashed question.segments_ne_nil, List.map_cons, List.map_map, decoded]
  rfl

lemma ofList_dropWhile_eq_of_pieces {path other : List Char}
    (same : Text.splitOn '/' (path.dropWhile (· == '/')) = Text.splitOn '/' (other.dropWhile (· == '/'))) :
    String.ofList (path.dropWhile (· == '/')) = String.ofList (other.dropWhile (· == '/')) := by
  rw [← Text.intercalate_splitOn '/' (path.dropWhile (· == '/')), same, Text.intercalate_splitOn]

/-- The segments tell the question. -/
lemma trimmed_eq_of_segments {question other : Question} (same : question.segments = other.segments) :
    question.trimmed = other.trimmed := by
  cases question with
  | repository owner name =>
    cases other with
    | repository owner' name' =>
      obtain ⟨rfl, rfl⟩ : owner = owner' ∧ name = name' := by simpa [Question.segments, String.toList_inj] using same
      rfl
    | languages _ _ | tree _ _ _ | file _ _ _ => simp [Question.segments] at same
  | languages owner name =>
    cases other with
    | languages owner' name' =>
      obtain ⟨rfl, rfl⟩ : owner = owner' ∧ name = name' := by simpa [Question.segments, String.toList_inj] using same
      rfl
    | repository _ _ | tree _ _ _ | file _ _ _ => simp [Question.segments] at same
  | tree owner name ref =>
    cases other with
    | tree owner' name' ref' =>
      obtain ⟨rfl, rfl, rfl⟩ : owner = owner' ∧ name = name' ∧ ref = ref' := by
        simpa [Question.segments, String.toList_inj] using same
      rfl
    | repository _ _ | languages _ _ | file _ _ _ => simp [Question.segments] at same
  | file owner name path =>
    cases other with
    | file owner' name' path' =>
      obtain ⟨rfl, rfl, pieces⟩ : owner = owner' ∧ name = name' ∧
          Text.splitOn '/' (path.toList.dropWhile (· == '/')) =
            Text.splitOn '/' (path'.toList.dropWhile (· == '/')) := by
        simpa [Question.segments, String.toList_inj] using same
      exact congrArg (Question.file owner name) (ofList_dropWhile_eq_of_pieces pieces)
    | repository _ _ | languages _ _ | tree _ _ _ => simp [Question.segments] at same

lemma path_trimmed (question : Question) : question.trimmed.path = question.path := by
  cases question with
  | repository _ _ | languages _ _ | tree _ _ _ => rfl
  | file owner name path =>
    rw [Question.trimmed, Question.path, Question.path, String.toList_ofList, List.dropWhile_idempotent]

lemma path_eq_iff {question other : Question} : question.path = other.path ↔ question.trimmed = other.trimmed := by
  constructor
  · intro same
    have read : Locator.read question.path.toList = Locator.read other.path.toList := by rw [same]
    rw [read_path, read_path] at read
    have segments : [] :: question.segments = [] :: other.segments := congrArg Locator.segments read
    exact trimmed_eq_of_segments (List.cons.inj segments).2
  · intro same
    rw [← path_trimmed question, same, path_trimmed]

/-! ### Requested addresses -/

/-- What a request keeps of the base address: the address without the blanks before it and without a mark. -/
def requestedBase (settings : HostSettings) : List Char :=
  let chars := (baseAddress settings).toList.dropWhile Text.isBlank
  let mark := "URL:".toList
  if mark.isPrefixOf chars then (chars.drop mark.length).dropWhile Text.isBlank else chars

/-- A base that begins neither with a blank nor with a mark is kept. -/
lemma requestedBase_eq {settings : HostSettings}
    (settled : (baseAddress settings).toList.head?.any Text.isBlank = false)
    (unmarked : "URL:".toList.isPrefixOf (baseAddress settings).toList = false) :
    requestedBase settings = (baseAddress settings).toList := by
  have kept : (baseAddress settings).toList.dropWhile Text.isBlank = (baseAddress settings).toList := by
    cases is : (baseAddress settings).toList with
    | nil => rfl
    | cons c rest =>
      have solid : Text.isBlank c = false := by rwa [is] at settled
      exact List.dropWhile_cons_of_neg (by simp [solid])
  rw [requestedBase, kept, unmarked]
  rfl

lemma unmark_append {rest : List Char} (solid : ∀ c ∈ '/' :: rest, Text.isBlank c = false) (settings : HostSettings) :
    unmark (String.ofList ((baseAddress settings).toList ++ '/' :: rest)) =
      String.ofList (requestedBase settings ++ '/' :: rest) := by
  have stripped : Text.stripChars (String.ofList ((baseAddress settings).toList ++ '/' :: rest)).toList =
      (baseAddress settings).toList.dropWhile Text.isBlank ++ '/' :: rest := by
    rw [String.toList_ofList, Text.stripChars_append_solid (List.cons_ne_nil _ _) solid]
  have marks (base : List Char) : "URL:".toList.isPrefixOf (base ++ '/' :: rest) = "URL:".toList.isPrefixOf base := by
    rw [Bool.eq_iff_iff, List.isPrefixOf_iff_prefix, List.isPrefixOf_iff_prefix]
    exact Text.prefix_append_separator_iff (by decide)
  simp only [unmark, stripped, marks, requestedBase]
  split_ifs with marked
  · obtain ⟨after, whole⟩ := List.isPrefixOf_iff_prefix.mp marked
    rw [← whole, List.append_assoc, List.drop_left, List.drop_left,
      Text.stripChars_append_solid (List.cons_ne_nil _ _) solid]
  · rfl

/-- Whether an address has a scheme is told by its base. -/
lemma hasScheme_append (base rest : List Char) :
    hasScheme (String.ofList (base ++ '/' :: rest)) = hasScheme (String.ofList base) := by
  have stops : ('/' :: rest).takeWhile (fun c => c != '/' && c != ':') = [] := rfl
  simp only [hasScheme, String.toList_ofList, List.takeWhile_append, stops, List.append_nil]
  split_ifs with whole
  · -- Without a slash and a colon in the base, the name is all of it, and no colon follows.
    rw [(List.takeWhile_prefix _).eq_of_length whole]
    simp
  · have shorter := lt_of_le_of_ne (List.takeWhile_prefix _).length_le whole
    rw [List.getElem?_append_left shorter]

/-- The part after the base begins with a slash, and has no blank. -/
lemma exists_path (question : Question) :
    ∃ rest, question.path.toList = '/' :: rest ∧ ∀ c ∈ '/' :: rest, Text.isBlank c = false := by
  refine ⟨_, by rw [toList_path, slashed_eq question.segments_ne_nil, List.cons_append], ?_⟩
  rw [← List.cons_append, ← slashed_eq question.segments_ne_nil]
  intro c member
  rcases List.mem_append.mp member with inside | inside
  · obtain ⟨segment, -, inside⟩ := List.mem_flatMap.mp inside
    rcases List.mem_cons.mp inside with rfl | inside
    · rfl
    · exact Percent.isBlank_of_isSegmentChar (Percent.isSegmentChar_of_mem_written inside)
  · have fixed : "?recursive=1".toList.all (fun c => !Text.isBlank c) = true := by decide
    cases question with
    | tree _ _ _ => simpa using List.all_eq_true.mp fixed c inside
    | repository _ _ | languages _ _ | file _ _ _ => cases inside

lemma toList_addressOf (settings : HostSettings) (question : Question) :
    (addressOf settings question).toList = (baseAddress settings).toList ++ question.path.toList := by
  rw [addressOf, String.toList_append]

/-- A request is made for the base and the part after it, when the base has a scheme. -/
lemma request_eq (settings : HostSettings) (question : Question) :
    Request.of settings question =
      if hasScheme (String.ofList (requestedBase settings)) then
        .ok ⟨String.ofList (requestedBase settings ++ question.path.toList), headersOf settings, settings.timeout⟩
      else .error ⟨String.ofList (requestedBase settings ++ question.path.toList)⟩ := by
  obtain ⟨rest, is, solid⟩ := exists_path question
  have address : unmark (addressOf settings question) = String.ofList (requestedBase settings ++ '/' :: rest) := by
    rw [← unmark_append solid, ← is, ← toList_addressOf, String.ofList_toList]
  rw [Request.of, address, hasScheme_append, is]

lemma address_of_request {settings : HostSettings} {question : Question} {request : Request}
    (asks : Request.of settings question = .ok request) :
    request.address.toList = requestedBase settings ++ question.path.toList := by
  rw [request_eq] at asks
  split_ifs at asks
  rw [← Except.ok.inj asks, String.toList_ofList]

/-- Each question is asked at the base address with its segments after it, each with a slash before it, and its query.
Whoever takes this apart finds the arguments as they were given, and no argument adds a segment, a query or a fragment.
So requests for one address ask the same question, up to slashes before the path of a file. -/
theorem addresses_tell_questions (settings : HostSettings) (question : Question) :
    (addressOf settings question).toList = (baseAddress settings).toList ++ question.path.toList ∧
      (Request.of settings question =
        if hasScheme (String.ofList (requestedBase settings)) then
          .ok ⟨String.ofList (requestedBase settings ++ question.path.toList), headersOf settings, settings.timeout⟩
        else .error ⟨String.ofList (requestedBase settings ++ question.path.toList)⟩) ∧
      ((baseAddress settings).toList.head?.any Text.isBlank = false →
        "URL:".toList.isPrefixOf (baseAddress settings).toList = false →
        requestedBase settings = (baseAddress settings).toList) ∧
      question.path.toList = slashed question.segments ++ question.query?.elim [] ('?' :: ·) ∧
      Locator.read question.path.toList = ⟨[] :: question.segments, question.query?, none⟩ ∧
      (∀ segment ∈ question.segments, Percent.decode (Percent.written segment) = segment ∧
        ∀ c ∈ Percent.written segment, Percent.isSegmentChar c = true) ∧
      ∀ (other : Question) (request request' : Request), Request.of settings question = .ok request →
        Request.of settings other = .ok request' →
        (request.address = request'.address ↔ question.trimmed = other.trimmed) := by
  refine ⟨toList_addressOf settings question, request_eq settings question, requestedBase_eq, toList_path question,
    read_path question, ?segments, ?requests⟩
  case segments =>
    intro segment _
    exact ⟨Percent.decode_written segment, fun c member => Percent.isSegmentChar_of_mem_written member⟩
  case requests =>
    intro other request request' asks asks'
    rw [← path_eq_iff, ← String.toList_inj, address_of_request asks, address_of_request asks', List.append_cancel_left_eq,
      String.toList_inj]

/-- A branch whose name has the marks of addresses, and a file that is asked for with slashes and without. -/
theorem addresses_tell_questions_marks :
    requestedBase {} = (baseAddress {}).toList ∧ ∃ branch rooted bare : Request,
      Request.of {} (.tree "o" "r" "fix/a?b#c%20") = .ok branch ∧ Request.of {} (.file "o" "r" "//é.md") = .ok rooted ∧
      Request.of {} (.file "o" "r" "é.md") = .ok bare ∧ branch.address ≠ bare.address ∧
      rooted.address = bare.address := by
  have base : hasScheme (String.ofList (requestedBase {})) = true := by decide
  have asks (question : Question) : ∃ request, Request.of {} question = .ok request :=
    ⟨_, by rw [request_eq, if_pos base]⟩
  obtain ⟨branch, asksBranch⟩ := asks (.tree "o" "r" "fix/a?b#c%20")
  obtain ⟨rooted, asksRooted⟩ := asks (.file "o" "r" "//é.md")
  obtain ⟨bare, asksBare⟩ := asks (.file "o" "r" "é.md")
  refine ⟨?_, branch, rooted, bare, asksBranch, asksRooted, asksBare, ?_, ?_⟩
  · obtain ⟨-, -, kept, -⟩ := addresses_tell_questions {} (.file "o" "r" "é.md")
    exact kept (by decide) (by decide)
  · obtain ⟨-, -, -, -, -, -, tells⟩ := addresses_tell_questions {} (.tree "o" "r" "fix/a?b#c%20")
    exact (tells _ _ _ asksBranch asksBare).not.mpr (by decide)
  · obtain ⟨-, -, -, -, -, -, tells⟩ := addresses_tell_questions {} (.file "o" "r" "//é.md")
    exact (tells _ _ _ asksRooted asksBare).mpr (by decide)

end RepoAudit.Host

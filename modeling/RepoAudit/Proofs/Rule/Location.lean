import RepoAudit.Proofs.Rule.Firing
import RepoAudit.Proofs.Rule.Progress
import RepoAudit.Proofs.Rule.Redaction

/-!
# Where findings are

Every line that a finding tells is a line of the file. The finding for a rule tells the line of the first character of
the first match (`Text.OnLine`), and its excerpt is made of the lines around that one, each under its own number
(`Excerpt.ShowsLines`). Redaction does not move lines, so this holds of the excerpts of secrets as well.
-/

namespace RepoAudit

open Pattern (Span)

namespace Text

/-- The character at position `p` is one of the line at index `i`, or the newline that ends this line. -/
def OnLine (s : List Char) (i p : Nat) : Prop :=
  ∃ line k c, (lines s)[i]? = some line ∧ p = lineStart s i + k ∧ (line ++ ['\n'])[k]? = some c ∧ s[p]? = some c

lemma onLine_first {s line : List Char} {rest : List (List Char)} {p : Nat} (whole : lines s = line :: rest)
    (here : p < s.length)
    (same : (line ++ ['\n'])[p]? = s[p]?) : OnLine s 0 p := by
  refine ⟨line, p, s[p], ?_, ?_, ?_, List.getElem?_eq_getElem here⟩
  · rw [whole]
    rfl
  · rw [lineStart_zero, Nat.zero_add]
  · rw [same, List.getElem?_eq_getElem here]

lemma onLine_succ {line rest : List Char} {i p : Nat} (single : '\n' ∉ line) (on : OnLine rest i p) :
    OnLine (line ++ '\n' :: rest) (i + 1) (line.length + 1 + p) := by
  obtain ⟨text, k, c, here, place, stands, there⟩ := on
  refine ⟨text, k, c, ?_, ?_, stands, ?_⟩
  · rw [lines_append_newline single]
    exact here
  · rw [lineStart_succ single, place, ← Nat.add_assoc]
  · rw [List.getElem?_append_right (by omega)]
    have index : line.length + 1 + p - line.length = p + 1 := by omega
    rw [index, List.getElem?_cons_succ]
    exact there

/-- Every character is on the line after the newlines before it. -/
lemma onLine_of_lt {s : List Char} {p : Nat} (inside : p < s.length) : OnLine s ((s.take p).count '\n') p := by
  induction s using piece_induction '\n' generalizing p with
  | last line single =>
    have none : (line.take p).count '\n' = 0 :=
      List.count_eq_zero.mpr fun member => single (List.mem_of_mem_take member)
    rw [none]
    exact onLine_first (lines_single single) inside (List.getElem?_append_left inside)
  | more line rest single ih =>
    -- The newline after a line is on this line, so the rest of the text begins behind it.
    rcases Nat.lt_or_ge line.length p with later | first
    · obtain ⟨q, rfl⟩ := Nat.exists_eq_add_of_le (Nat.succ_le_of_lt later)
      have before : (line ++ '\n' :: rest).take (line.length + 1 + q) = line ++ '\n' :: rest.take q := by
        rw [Nat.add_assoc, List.take_length_add_append, Nat.add_comm, List.take_succ_cons]
      have count : ((line ++ '\n' :: rest).take (line.length + 1 + q)).count '\n' = (rest.take q).count '\n' + 1 := by
        rw [before, List.count_append, List.count_eq_zero.mpr single, List.count_cons_self, Nat.zero_add]
      rw [count]
      apply onLine_succ single
      apply ih
      rw [List.length_append, List.length_cons] at inside
      omega
    · have none : ((line ++ '\n' :: rest).take p).count '\n' = 0 := by
        rw [List.take_append_of_le_length first]
        exact List.count_eq_zero.mpr fun member => single (List.mem_of_mem_take member)
      have parts : line ++ '\n' :: rest = (line ++ ['\n']) ++ rest := by simp
      rw [none]
      refine onLine_first (lines_append_newline single) inside ?_
      have short : p < (line ++ ['\n']).length := by
        rw [List.length_append]
        exact Nat.lt_succ_of_le first
      rw [parts, List.getElem?_append_left short]

lemma count_take_lt (s : List Char) (p : Nat) : (s.take p).count '\n' + 1 ≤ (lines s).length := by
  rw [length_lines]
  exact Nat.succ_le_succ ((List.take_sublist p s).count_le '\n')

lemma newline_notMem_toString (n : Nat) : '\n' ∉ (toString n).toList := by
  rw [Nat.toString_eq_ofList_toDigits, String.toList_ofList]
  intro member
  exact absurd (Nat.isDigit_of_mem_toDigits (by decide) (by decide) member) (by decide)

end Text

namespace Excerpt

/-- The line of a number, under this number. -/
def RowOf (lines : List (List Char)) (n : Nat) (shown : List Char) : Prop :=
  ∃ line, lines[n - 1]? = some line ∧ shown = (toString n).toList ++ [' ', '|', ' '] ++ line

/-- The rows of a text are the lines from one number to another, in order and each under its number. -/
def ShowsLines (lines : List (List Char)) (low high : Nat) (text : List Char) : Prop :=
  List.Forall₂ (RowOf lines) (List.range' low (high + 1 - low)) (Text.lines text)

lemma newline_notMem_row {n : Nat} {line : List Char} (single : '\n' ∉ line) : '\n' ∉ (row n line).toList := by
  rw [row, String.toList_append, String.toList_append, String.toList_ofList, String.toList_ofList, List.mem_append,
    List.mem_append, not_or, not_or]
  exact ⟨⟨Text.newline_notMem_toString (n + 1), by decide⟩, single⟩

lemma newline_notMem_of_mem_rows {content : List Char} {line context : Int} :
    ∀ shown ∈ (rows content line context).map String.toList, '\n' ∉ shown := by
  intro shown member
  obtain ⟨_, isRow, rfl⟩ := List.mem_map.mp member
  obtain ⟨n, line, here, rfl⟩ := exists_of_mem_rows isRow
  exact newline_notMem_row (Text.newline_notMem_of_mem_lines (List.mem_of_getElem? here))

lemma rowsOf_numbered {lines : List (List Char)} {start count : Nat} (inside : start + count ≤ lines.length) :
    List.Forall₂ (RowOf lines) (List.range' (start + 1) count)
      ((numbered ((start : Int) + 1) ((lines.drop start).take count)).map String.toList) := by
  -- The induction is on the number of rows, and each further row begins one line later.
  induction count generalizing start with
  | zero => exact .nil
  | succ count ih =>
    have here : start < lines.length := by omega
    rw [List.drop_eq_getElem_cons here, List.take_succ_cons, List.range'_succ, numbered, List.map_cons]
    refine .cons ⟨_, List.getElem?_eq_getElem here, ?_⟩ (ih (by omega))
    rw [String.toList_append, String.toList_append, String.toList_ofList, String.toList_ofList]
    rfl

lemma rows_eq {content : List Char} {line context low high : Nat} (starts : low = line - context - 1)
    (stops : high = min (Text.lines content).length (line + context)) (inside : low ≤ (Text.lines content).length) :
    rows content line context = numbered ((low : Int) + 1) (((Text.lines content).drop low).take (high - low)) := by
  have start : max 0 ((line : Int) - context - 1) = (low : Int) := by omega
  have stop : min ((Text.lines content).length : Int) (line + context) = (high : Int) := by omega
  have inside' : high ≤ (Text.lines content).length := stops.trans_le (Nat.min_le_left _ _)
  simp only [rows, start, stop, Text.between, Text.boundIndex_natCast]
  rw [Nat.min_eq_left inside, Nat.min_eq_left inside', List.drop_take]

/-- An excerpt shows the lines that are near enough. -/
lemma showsLines_around {content : List Char} {line : Nat} (context : Nat) (first : 1 ≤ line)
    (last : line ≤ (Text.lines content).length) :
    ShowsLines (Text.lines content) (max 1 (line - context)) (min (Text.lines content).length (line + context))
      (around content line context).toList := by
  obtain ⟨low, starts⟩ : ∃ low, low = line - context - 1 := ⟨_, rfl⟩
  obtain ⟨high, stops⟩ : ∃ high, high = min (Text.lines content).length (line + context) := ⟨_, rfl⟩
  have begins : max 1 (line - context) = low + 1 := by omega
  have count : high + 1 - (low + 1) = high - low := by omega
  have shown : List.Forall₂ (RowOf (Text.lines content)) (List.range' (low + 1) (high - low))
      ((rows content line context).map String.toList) := by
    rw [rows_eq starts stops (by omega)]
    exact rowsOf_numbered (by omega)
  have any : (rows content line context).map String.toList ≠ [] := by
    intro none
    have size := shown.length_eq
    rw [none, List.length_range', List.length_nil] at size
    omega
  have newline : "\n".toList = ['\n'] := rfl
  have split : Text.lines (['\n'].intercalate ((rows content line context).map String.toList)) =
      (rows content line context).map String.toList := Text.splitOn_intercalate any newline_notMem_of_mem_rows
  rw [ShowsLines, ← stops, begins, count, around, String.toList_intercalate, newline, split]
  exact shown

end Excerpt

/-- The lines that a finding tells are lines of a file with `count` lines, in this order. -/
structure Finding.Within (count : Nat) (finding : Finding) : Prop where
  starts : ∀ line, finding.lineStart = some line → 1 ≤ line ∧ line ≤ count
  stops : ∀ stop, finding.lineEnd = some stop → ∃ line, finding.lineStart = some line ∧ line ≤ stop ∧ stop ≤ count

namespace BuiltinFamily

section

variable {rules : Ruleset} {path : String} {content : List Char} {family : BuiltinFamily} {rule : Rule} {span : Span}

lemma mem_occurrences_of_reported (member : span ∈ family.reported rules (.of path content) rule) :
    span ∈ rule.pattern.occurrences content.toArray := by
  cases family with
  | secrets => exact List.mem_of_mem_filter member
  | _ => exact member

lemma bounds_of_reported (member : span ∈ family.reported rules (.of path content) rule) :
    span.start ≤ span.stop ∧ span.stop ≤ content.length := by
  have ordered := Pattern.occurrences_ordered rule.pattern content.toArray
  obtain ⟨-, stops, inside⟩ := ordered.bounds span (mem_occurrences_of_reported member)
  rw [List.size_toArray] at inside
  exact ⟨stops, inside⟩

/-- The first character of a match, where no match is empty. -/
lemma lt_of_reported (takes : rule.pattern.consumes = true)
    (member : span ∈ family.reported rules (.of path content) rule) : span.start < content.length := by
  have some := Pattern.lt_of_mem_occurrencesFrom takes span (mem_occurrences_of_reported member)
  exact some.trans_le (bounds_of_reported member).2

lemma length_lines_evidence (rules : Ruleset) (path : String) (content : List Char) (family : BuiltinFamily)
    (rule : Rule) :
    (Text.lines (family.evidence rules (.of path content) rule)).length = (Text.lines content).length := by
  cases family with
  | secrets =>
    have ordered := secretMatches_ordered rules path content rule
    rw [← Nat.zero_add content.length] at ordered
    show (Text.lines (Excerpt.replaceFrom Excerpt.redactLines 0 _ content)).length = _
    rw [Excerpt.lines_replaceFrom ordered, List.length_mapIdx]
  | _ => rfl

end

end BuiltinFamily

open BuiltinFamily

/-- Where the finding for a rule is, and what its excerpt shows with `context` lines on either side. -/
structure Finding.Located (rules : Ruleset) (context : Nat) (path : String) (content : List Char)
    (family : BuiltinFamily) (rule : Rule) (finding : Finding) : Prop where
  found : family.findingFor rules context (.of path content) rule = some finding
  onLine : family ∈ [secrets, security, stability] → ∃ (first : Span) (rest : List Span) (i : Nat),
    family.reported rules (.of path content) rule = first :: rest ∧ finding.lineStart = some ((i : Int) + 1) ∧
      Text.OnLine content i first.start
  shows : finding.snippet.isSome = family.showsExcerpts
  excerpt : ∀ snippet, finding.snippet = some snippet → ∃ (line : Nat) (shown : List Char),
    finding.lineStart = some (line : Int) ∧ (Text.lines shown).length = (Text.lines content).length ∧
      (family = secrets → shown = Excerpt.mask (secretMatches rules (.of path content) rule) content) ∧
      (family = security → shown = content) ∧
      Excerpt.ShowsLines (Text.lines shown) (max 1 (line - context)) (min (Text.lines content).length (line + context))
        snippet.toList

section

variable {rules : Ruleset} {context : Nat} {path : String} {content : List Char} {family : BuiltinFamily} {rule : Rule}
  {finding : Finding}

lemma locates_of_showsExcerpts (shows : family.showsExcerpts = true) : family.locates = true := by
  cases family with
  | secrets | security => rfl
  | _ => cases shows

lemma locates_of_mem (listed : family ∈ [secrets, security, stability]) : family.locates = true := by
  simp only [List.mem_cons, List.not_mem_nil, or_false] at listed
  rcases listed with rfl | rfl | rfl <;> rfl

lemma Finding.within_of_findingFor (found : family.findingFor rules context (.of path content) rule = some finding) :
    finding.Within (Text.lines content).length := by
  obtain ⟨first, rest, is, rfl⟩ := findingFor_inv found
  obtain ⟨before, inside⟩ := bounds_of_reported (is ▸ List.mem_cons_self)
  have line : startLine (.of path content) first = _ := startLine_eq (before.trans inside)
  have bound := Text.count_take_lt content first.start
  constructor
  · intro told starts
    obtain ⟨-, told⟩ := Option.ite_none_right_eq_some.mp starts
    obtain rfl := Option.some.inj told
    omega
  · intro stop stops
    obtain ⟨shows, told⟩ := Option.ite_none_right_eq_some.mp stops
    obtain rfl := Option.some.inj told
    exact ⟨_, if_pos (locates_of_showsExcerpts shows), Int.le_refl _, by omega⟩

lemma Finding.located_of_findingFor (takes : rule.pattern.consumes = true)
    (found : family.findingFor rules context (.of path content) rule = some finding) :
    finding.Located rules context path content family rule := by
  obtain ⟨first, rest, is, rfl⟩ := findingFor_inv found
  have inside := lt_of_reported takes (is ▸ List.mem_cons_self)
  have line : startLine (.of path content) first = _ := startLine_eq inside.le
  refine ⟨found, fun locating => ?_, ?_, fun snippet shown => ?_⟩
  · refine ⟨first, rest, (content.take first.start).count '\n', is, ?_, Text.onLine_of_lt inside⟩
    rw [← line]
    exact if_pos (locates_of_mem locating)
  · rw [report]
    cases family.showsExcerpts <;> rfl
  · obtain ⟨shows, told⟩ := Option.ite_none_right_eq_some.mp shown
    obtain rfl := Option.some.inj told
    have count := length_lines_evidence rules path content family rule
    have bound := (Text.count_take_lt content first.start).trans_eq count.symm
    refine ⟨(content.take first.start).count '\n' + 1, family.evidence rules (.of path content) rule, ?_, count, ?_,
      ?_, ?_⟩
    · exact (if_pos (locates_of_showsExcerpts shows)).trans (congrArg some line)
    · rintro rfl
      rfl
    · rintro rfl
      rfl
    · rw [line, ← count]
      exact Excerpt.showsLines_around context (Nat.le_add_left 1 _) bound

lemma Finding.within_of_aboutLength (about : finding ∈ family.aboutLength (.of path content)) :
    finding.Within (Text.lines content).length := by
  obtain rfl := eq_lengthReport about
  have some : 1 ≤ (Text.lines content).length := by
    rw [Text.length_lines]
    exact Nat.le_add_left 1 _
  constructor
  · rintro line ⟨⟩
    omega
  · rintro stop ⟨⟩
    refine ⟨1, rfl, ?_, Int.le_refl _⟩
    show (1 : Int) ≤ (Text.lines content).length
    omega

end

/-- Where the findings of a scan are, for every content and number of lines of context. All lines that are told are
lines of the file. The finding for a rule tells the line with the first character of the first match that it reports,
and its excerpt shows just the lines of the file that are near enough, or for secrets these lines redacted. -/
theorem findings_are_located {rules : Ruleset} (builtin : ∀ rule ∈ rules.allRules, rule ∈ ({} : Ruleset).allRules)
    (limits : Limits) (chosen : List BuiltinFamily) (context : Nat) (path : String) (content : List Char) :
    ∃ findings, Engine.scanFile ⟨rules, limits, chosen.map (·.toFamily rules context)⟩ path content = .ok findings ∧
      ∀ finding ∈ findings, finding.Within (Text.lines content).length ∧ ∃ family ∈ chosen,
        (∃ rule ∈ family.table rules, finding.Located rules context path content family rule) ∨
          finding ∈ family.aboutLength (.of path content) ∧ finding.snippet = none := by
  refine ⟨_, scanFile_builtin rules limits chosen path content, fun finding member => ?_⟩
  obtain ⟨_, listed, member⟩ := List.mem_flatten.mp member
  obtain ⟨family, isChosen, rfl⟩ := List.mem_map.mp listed
  rcases mem_evaluate.mp member with ⟨rule, listed, found⟩ | about
  · have takes := Catalog.consumes rule (builtin rule (mem_allRules listed))
    exact ⟨Finding.within_of_findingFor found, family, isChosen,
      .inl ⟨rule, listed, Finding.located_of_findingFor takes found⟩⟩
  · refine ⟨Finding.within_of_aboutLength about, family, isChosen, .inr ⟨about, ?_⟩⟩
    rw [eq_lengthReport about]
    rfl

def dangerous : List Char := "let a;\neval(a);\nlet b;\nlet c;".toList

theorem findings_are_located_second : ∃ findings,
    Engine.scanFile ⟨{}, {}, [security].map (·.toFamily {} (1 : Nat))⟩ "a.js" dangerous = .ok findings ∧
      findings.map (fun finding => (finding.lineStart, finding.snippet)) =
        [(some 2, some "1 | let a;\n2 | eval(a);\n3 | let b;")] ∧
      ∀ finding ∈ findings, finding.Within 4 ∧
        ∃ rule ∈ Catalog.security, finding.Located {} 1 "a.js" dangerous security rule := by
  have builtin : ∀ rule ∈ ({} : Ruleset).allRules, rule ∈ ({} : Ruleset).allRules := fun _ listed => listed
  obtain ⟨findings, scans, located⟩ := findings_are_located builtin {} [security] 1 "a.js" dangerous
  refine ⟨findings, scans, ?_, fun finding member => ?_⟩
  · rw [scanFile_builtin] at scans
    obtain rfl := Except.ok.inj scans
    decide +kernel
  · obtain ⟨within, family, isChosen, ⟨rule, listed, place⟩ | ⟨about, -⟩⟩ := located finding member
    · obtain rfl := List.mem_singleton.mp isChosen
      exact ⟨within, rule, listed, place⟩
    · obtain rfl := List.mem_singleton.mp isChosen
      cases about

end RepoAudit

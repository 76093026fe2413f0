import LibOsdp.Base.Fields
import LibOsdp.Release.Ci

/-!
# The signature of a release

Before it touches anything, `publish` asks whether a secret key of its user is one that is
published, and after it has tagged the release it asks who signed the tag. Both answers it reads
from what gpg prints. Here that is the records of a listing, and the reports of a verification, of
which those about signatures may be of any keys, in any number and with any user names: also with
one that has a line end in it, where the tool reads on a line of its own what comes after.
-/

set_option autoImplicit false

namespace LibOsdp.Release

open LibOsdp.Base

/-- What gpg answers in a run, and the server that has the published key. -/
structure Gpg where
  fetched : Option (List UInt8)
  imports : Bool
  /-- `gpg --with-colons --list-keys`, of the published key. -/
  listKeys : Line
  listSecretKeys : Line
  /-- The two outputs of `git verify-tag --raw`. -/
  stdout : Line
  stderr : Line

/-- The ways the questions about keys end the tool. -/
inductive KeyDie where
  | notFetched
  | emptyKey
  | notImported
  /-- A listing that is not read. -/
  | badListing
  | noSecretKey
  | notSigned (tag : Tag)
  deriving DecidableEq, Repr

/-- Primary key of the release identity. -/
def releaseKey : Line := "D8861B9C6B9C4284D980D6016804DFEE281234B2".toList

def keyDieIf (c : Bool) (e : KeyDie) : Except KeyDie Unit := if c then .error e else .ok ()

/-- The bytes that `bytes.strip` takes away. -/
def isBlankByte (b : UInt8) : Bool := b == 32 || (9 ≤ b && b ≤ 13)

/-- `_fetch_key`. -/
def fetchKey (gpg : Gpg) : Except KeyDie (List UInt8) := do
  let data ← okOr gpg.fetched .notFetched
  keyDieIf (data.all isBlankByte) .emptyKey
  return data

/-- Fetch the published key and import it. -/
def importKey (gpg : Gpg) : Except KeyDie Unit := do
  let _ ← fetchKey gpg
  keyDieIf (!gpg.imports) .notImported

/-- `_fingerprints`: a line with too few fields ends the tool. -/
def fingerprints (output : Line) : Except KeyDie (List Line) :=
  ((splitlines output).filter ("fpr:".toList <+: ·)).mapM fun line =>
    okOr (line.splitOn ':')[9]? .badListing

/-- Is a local secret key one that is published? -/
def checkSigningKeyAvailable (gpg : Gpg) : Except KeyDie Unit := do
  importKey gpg
  let published ← fingerprints gpg.listKeys
  let secret ← fingerprints gpg.listSecretKeys
  keyDieIf (!(published.any fun key => secret.contains key)) .noSecretKey

def goodsig : Line := "[GNUPG:] GOODSIG ".toList

def validsig : Line := "[GNUPG:] VALIDSIG ".toList

/-- `line.split()[-1]`. -/
def lastWord (line : Line) : Line := (words line).getLastD []

/-- The primary key after one more line of the status. -/
def notePrimary (primary line : Line) : Line :=
  if validsig <+: line then lastWord line else primary

/-- The last word of the last `VALIDSIG` line. -/
def primaryOf (status : Line) : Line := (splitlines status).foldl notePrimary []

/-- Is the tag signed by a subkey of the release key? -/
def verifyTagSignature (gpg : Gpg) (tag : Tag) : Except KeyDie Unit := do
  importKey gpg
  let status := gpg.stdout ++ gpg.stderr
  keyDieIf (¬ goodsig <:+: status || primaryOf status ≠ releaseKey) (.notSigned tag)

/-! ## What gpg prints -/

/-- The records of a listing, by their fields. -/
abbrev Listing := List (List Line)

def Listing.text (listing : Listing) : Line := endLines (listing.map (joinFields ':'))

/-- The fingerprint in a record, if it is of one. -/
def fingerprint? (fields : List Line) : Option Line :=
  if fields.head? = some "fpr".toList then fields[9]? else none

/-- What gpg can print as a record: a fingerprint is its tenth field, and no other record has a line
    that opens as that of a fingerprint does. A field of one may have a line end in it. -/
structure Printable (fields : List Line) : Prop where
  fingerprint : fields.head? = some "fpr".toList →
    10 ≤ fields.length ∧ ∀ field ∈ fields, ':' ∉ field ∧ Plain field
  other : fields.head? ≠ some "fpr".toList →
    ∀ line ∈ splitlines (joinFields ':' fields), ¬ "fpr:".toList <+: line

/-- The keys that a printed line names, by all the lines that it is read as. -/
def named (line : Line) : List Line :=
  ((splitlines (line ++ ['\n'])).filter (validsig <+: ·)).map lastWord

/-- What gpg finds of a signature. -/
inductive Verdict where
  | good
  | expired
  | expiredKey
  | revokedKey
  | bad
  deriving DecidableEq, Repr

def Verdict.keyword : Verdict → Line
  | .good => "GOODSIG".toList
  | .expired => "EXPSIG".toList
  | .expiredKey => "EXPKEYSIG".toList
  | .revokedKey => "REVKEYSIG".toList
  | .bad => "BADSIG".toList

/-- How the status line of a verdict opens. -/
def Verdict.opening (verdict : Verdict) : Line := "[GNUPG:] ".toList ++ verdict.keyword ++ [' ']

/-- A signature on the tag; `details` are what its `VALIDSIG` line says before the primary key. -/
structure Signature where
  verdict : Verdict
  keyId : Line
  user : Line
  details : List Line
  primary : Line
  deriving DecidableEq, Repr

/-- A word without the bracket that a status line opens with. -/
def Bare (word : Line) : Prop := Word word ∧ '[' ∉ word

namespace Signature

def verdictLine (sig : Signature) : Line := sig.verdict.opening ++ (sig.keyId ++ ' ' :: sig.user)

def validLine (sig : Signature) : Line := validsig ++ joinWords (sig.details ++ [sig.primary])

/-- A signature that does not match what it signs has no `VALIDSIG` line. -/
def lines (sig : Signature) : List Line :=
  if sig.verdict = .bad then [sig.verdictLine] else [sig.verdictLine, sig.validLine]

/-- What gpg can report of a signature; a user name may be any. -/
structure Formed (sig : Signature) : Prop where
  keyId : Bare sig.keyId
  valid : ∀ word ∈ sig.details ++ [sig.primary], Bare word

/-- Does the status say `GOODSIG`, of the signature or in its user name? -/
def SaysGood (sig : Signature) : Prop := sig.verdict = .good ∨ goodsig <:+: sig.user

/-- The keys that a user name names, on the lines that it runs on to. -/
def claimed (sig : Signature) : List Line :=
  ((splitlines sig.user).tail.filter (validsig <+: ·)).map lastWord

/-- The keys that the status names for the signature. -/
def keys (sig : Signature) : List Line :=
  sig.claimed ++ if sig.verdict = .bad then [] else [sig.primary]

end Signature

/-- What gpg reports of a verification. -/
inductive Report where
  | signature (sig : Signature)
  /-- A line on anything else. -/
  | other (line : Line)
  deriving DecidableEq, Repr

namespace Report

def lines : Report → List Line
  | .signature sig => sig.lines
  | .other line => [line]

def signature? : Report → Option Signature
  | .signature sig => some sig
  | .other _ => none

/-- Only the reports of signatures say `GOODSIG` and `VALIDSIG`. -/
def Formed : Report → Prop
  | .signature sig => sig.Formed
  | .other line => ¬ goodsig <:+: line ∧ ∀ piece ∈ splitlines line, ¬ validsig <+: piece

end Report

variable {gpg : Gpg} {tag : Tag} {listing : Listing} {fields : List Line} {sig : Signature}
  {report : Report} {reports : List Report}

theorem keyDieIf_eq_ok {c : Bool} {e : KeyDie} {u : Unit} : keyDieIf c e = .ok u ↔ c = false := by
  cases c with
  | true => exact iff_of_false (by rintro ⟨⟩) (by rintro ⟨⟩)
  | false => exact iff_of_true rfl rfl

/-! ## The key that signs -/

/-- A record of several fields without separators opens as a fingerprint does if it is one. -/
theorem opens_fingerprint (long : 2 ≤ fields.length) (apart : ∀ field ∈ fields, ':' ∉ field) :
    "fpr:".toList <+: joinFields ':' fields ↔ fields.head? = some "fpr".toList := by
  have own : ':' ∉ "fpr".toList := by decide
  match fields, long with
  | first :: second :: rest, _ =>
    rw [List.head?_cons, Option.some.injEq]
    exact opens_joinFields own (apart first List.mem_cons_self)

/-- What the lines of a record are, if there is no line end in its fields. -/
theorem splitlines_record (plain : ∀ field ∈ fields, Plain field) :
    splitlines (joinFields ':' fields ++ ['\n']) = [joinFields ':' fields] :=
  splitlines_ended_line (forall_mem_intercalate rfl plain)

/-- A record without line ends, of fields as gpg writes them. -/
theorem printable_of_plain (long : 10 ≤ fields.length) (apart : ∀ field ∈ fields, ':' ∉ field)
    (plain : ∀ field ∈ fields, Plain field) : Printable fields where
  fingerprint _ := ⟨long, fun field mem => ⟨apart field mem, plain field mem⟩⟩
  other differs line mem opens := by
    have one := @filter_ended ("fpr:".toList <+: ·) (joinFields ':' fields) rfl
    have mem' : line ∈ (splitlines (joinFields ':' fields)).filter ("fpr:".toList <+: ·) :=
      List.mem_filter.mpr ⟨mem, by simpa using opens⟩
    rw [← one, splitlines_record plain] at mem'
    obtain rfl := List.mem_singleton.mp (List.mem_filter.mp mem').1
    exact differs ((opens_fingerprint (by omega) apart).mp opens)

/-- The fingerprint that is read from what is printed of a record. -/
theorem fingerprints_record (printable : Printable fields) :
    ((splitlines (joinFields ':' fields ++ ['\n'])).filter ("fpr:".toList <+: ·)).mapM
      (fun line => okOr (line.splitOn ':')[9]? KeyDie.badListing) =
        .ok (fingerprint? fields).toList := by
  rw [fingerprint?]
  by_cases fpr : fields.head? = some "fpr".toList
  · obtain ⟨long, inner⟩ := printable.fingerprint fpr
    have apart := fun field mem => (inner field mem).1
    have tenth : fields[9]? = some (fields.get ⟨9, long⟩) := List.getElem?_eq_getElem long
    have opens := (opens_fingerprint (by omega) apart).mpr fpr
    have some' : fields ≠ [] := List.ne_nil_of_length_pos (by omega)
    rw [splitlines_record fun field mem => (inner field mem).2,
      List.filter_cons_of_pos (by simpa using opens), List.filter_nil, List.mapM_cons,
      splitOn_joinFields some' apart, if_pos fpr, tenth]
    rfl
  · have none' : (splitlines (joinFields ':' fields)).filter ("fpr:".toList <+: ·) = [] :=
      List.filter_eq_nil_iff.mpr fun line mem => by simpa using printable.other fpr line mem
    rw [filter_ended rfl, none', if_neg fpr]
    rfl

/-- **The fingerprints of a listing are read**, and nothing else of it. -/
theorem fingerprints_text (printable : ∀ fields ∈ listing, Printable fields) :
    fingerprints listing.text = .ok (listing.filterMap fingerprint?) := by
  rw [fingerprints, Listing.text, splitlines_endLines, List.flatMap_map]
  induction listing with
  | nil => rfl
  | cons fields listing ih =>
    have first := fingerprints_record (printable fields List.mem_cons_self)
    have rest := ih fun other mem => printable other (List.mem_cons_of_mem _ mem)
    rw [List.flatMap_cons, List.filter_append, List.mapM_append, first, ok_bind, rest,
      List.filterMap_cons]
    cases fingerprint? fields <;> rfl

/-- **A release can be signed** exactly if a fingerprint of the published key is one of a secret
    key. -/
theorem signing_key_available_exact {published secret : Listing}
    (printable : ∀ fields ∈ published ++ secret, Printable fields)
    (listed : gpg.listKeys = published.text) (listed' : gpg.listSecretKeys = secret.text) :
    checkSigningKeyAvailable gpg = .ok () ↔ importKey gpg = .ok () ∧
      ∃ fields ∈ published, ∃ fields' ∈ secret, ∃ key,
        fingerprint? fields = some key ∧ fingerprint? fields' = some key := by
  have read := fingerprints_text fun fields mem => printable fields (List.mem_append_left _ mem)
  have read' := fingerprints_text fun fields mem => printable fields (List.mem_append_right _ mem)
  rw [← listed] at read
  rw [← listed'] at read'
  simp only [checkSigningKeyAvailable, bind_eq_ok, read, read', keyDieIf_eq_ok, Except.ok.injEq,
    exists_eq_left', Bool.not_eq_false', List.any_eq_true, List.contains_iff_mem,
    List.mem_filterMap]
  constructor
  · rintro ⟨_, imported, key, ⟨fields, mem, own⟩, fields', mem', own'⟩
    exact ⟨imported, fields, mem, fields', mem', key, own, own'⟩
  · rintro ⟨imported, fields, mem, fields', mem', key, own, own'⟩
    exact ⟨(), imported, key, ⟨fields, mem, own⟩, fields', mem', own'⟩

/-- The record of a fingerprint. -/
def fingerprintRecord (key : Line) : List Line := "fpr".toList :: List.replicate 8 [] ++ [key, []]

/-- The record of a user, with a line separator in the name. -/
def userRecord : List Line := ["uid".toList, "Release\u2028".toList, []]

/-- A run in which the user has the release key, and gpg prints the reports. -/
def sampleGpg (reports : List Report) : Gpg where
  fetched := some [45]
  imports := true
  listKeys := Listing.text [userRecord, fingerprintRecord releaseKey]
  listSecretKeys := Listing.text [fingerprintRecord releaseKey]
  stdout := []
  stderr := endLines (reports.flatMap Report.lines)

theorem printable_userRecord : Printable userRecord where
  fingerprint fpr := absurd fpr (by decide)
  other _ := by decide

theorem printable_fingerprintRecord : Printable (fingerprintRecord releaseKey) := by
  have plain : (fingerprintRecord releaseKey).all (·.all (! isLineEnd ·)) = true := by decide
  exact printable_of_plain (by decide) (by decide) fun field mem =>
    forall_false_of_all (List.all_eq_true.mp plain field mem)

theorem signing_key_available_exact_release : checkSigningKeyAvailable (sampleGpg []) = .ok () := by
  have printable : ∀ fields ∈ [userRecord, fingerprintRecord releaseKey] ++
      [fingerprintRecord releaseKey], Printable fields := by
    intro fields mem
    simp only [List.cons_append, List.nil_append, List.mem_cons, List.not_mem_nil, or_false] at mem
    rcases mem with rfl | rfl | rfl
    · exact printable_userRecord
    · exact printable_fingerprintRecord
    · exact printable_fingerprintRecord
  exact (signing_key_available_exact printable rfl rfl).mpr ⟨rfl, fingerprintRecord releaseKey,
    by decide, fingerprintRecord releaseKey, by decide, releaseKey, rfl, rfl⟩

/-! ## The key that signed -/

namespace Signature

theorem plain_opening (formed : sig.Formed) :
    Plain (sig.verdict.opening ++ (sig.keyId ++ [' '])) := by
  have opening : ∀ verdict : Verdict, ∀ c ∈ verdict.opening, isLineEnd c = false := by
    intro verdict
    cases verdict <;> exact forall_false_of_all (by decide)
  intro c mem
  rcases List.mem_append.mp mem with mem | mem
  · exact opening sig.verdict c mem
  rcases List.mem_append.mp mem with mem | mem
  · exact formed.keyId.1.plain c mem
  · obtain rfl := List.mem_singleton.mp mem
    rfl

theorem plain_validLine (formed : sig.Formed) : Plain sig.validLine := by
  have opening : ∀ c ∈ validsig, isLineEnd c = false := forall_false_of_all (by decide)
  have words : ∀ c ∈ joinWords (sig.details ++ [sig.primary]), isLineEnd c = false :=
    forall_mem_intercalate rfl fun word mem => (formed.valid word mem).1.plain
  intro c mem
  rcases List.mem_append.mp mem with mem | mem
  · exact opening c mem
  · exact words c mem

/-- Every verdict opens its line in its own way, with the one bracket. -/
theorem opening_cases (verdict : Verdict) : ∃ tail, verdict.opening = '[' :: tail ∧ '[' ∉ tail ∧
    (verdict ≠ .good → ¬ goodsig <+: '[' :: tail ∧ ¬ '[' :: tail <+: goodsig) ∧
    ¬ validsig <+: '[' :: tail ∧ ¬ '[' :: tail <+: validsig := by
  cases verdict <;> exact ⟨_, rfl, by decide, by decide, by decide, by decide⟩

/-- Of another verdict, what says `GOODSIG` is the name of the user. -/
theorem goodsig_verdictLine (formed : sig.Formed) : goodsig <:+: sig.verdictLine ↔ sig.SaysGood := by
  constructor
  · intro h
    by_cases good : sig.verdict = .good
    · exact .inl good
    · obtain ⟨tail, eq, once, apart, -⟩ := opening_cases sig.verdict
      obtain ⟨left, right⟩ := apart good
      have whole : sig.verdictLine = '[' :: (tail ++ (sig.keyId ++ [' '])) ++ sig.user := by
        rw [verdictLine, eq]
        simp
      have once' : '[' ∉ tail ++ (sig.keyId ++ [' ']) := by
        simp [once, formed.keyId.2]
      have other : ¬ goodsig <+: sig.verdictLine := by
        rw [verdictLine, eq]
        exact not_prefix_append left right
      rw [whole] at h other
      exact .inr (infix_of_opening once' other h)
  · rintro (good | user)
    · rw [verdictLine, good]
      exact ⟨[], sig.keyId ++ ' ' :: sig.user, rfl⟩
    · have last : sig.user <:+ sig.verdictLine :=
        (List.suffix_cons _ _).trans ((List.suffix_append _ _).trans (List.suffix_append _ _))
      exact user.trans last.isInfix

theorem not_goodsig_validLine (formed : sig.Formed) : ¬ goodsig <:+: sig.validLine := by
  have flat : ∀ c ∈ joinWords (sig.details ++ [sig.primary]), c ≠ '[' := by
    refine forall_mem_intercalate (by decide) fun word mem c inside => ?_
    rintro rfl
    exact (formed.valid word mem).2 inside
  intro h
  have rest := infix_of_opening (by decide) (not_prefix_append (by decide) (by decide)) h
  exact flat '[' (rest.subset List.mem_cons_self) rfl

theorem not_validsig_opening {ahead : Line} : ¬ validsig <+: sig.verdict.opening ++ ahead := by
  obtain ⟨tail, eq, -, -, left, right⟩ := opening_cases sig.verdict
  rw [eq]
  exact not_prefix_append left right

theorem last_validLine (formed : sig.Formed) : lastWord sig.validLine = sig.primary := by
  have whole : sig.validLine =
      joinWords ("[GNUPG:]".toList :: "VALIDSIG".toList :: (sig.details ++ [sig.primary])) := by
    rw [joinWords_cons (by simp), joinWords_cons (by simp)]
    rfl
  have all : ∀ word ∈ "[GNUPG:]".toList :: "VALIDSIG".toList :: (sig.details ++ [sig.primary]),
      Word word := by
    intro word mem
    rcases List.mem_cons.mp mem with rfl | mem
    · exact .of_all (by decide) (by decide)
    rcases List.mem_cons.mp mem with rfl | mem
    · exact .of_all (by decide) (by decide)
    · exact (formed.valid word mem).1
  rw [whole, lastWord, words_joinWords all, ← List.cons_append, ← List.cons_append,
    List.getLastD_concat]

/-- On the line of a verdict the user name alone names keys, behind its first line end. -/
theorem named_verdictLine (formed : sig.Formed) : named sig.verdictLine = sig.claimed := by
  have whole : sig.verdictLine ++ ['\n'] =
      sig.verdict.opening ++ (sig.keyId ++ [' ']) ++ (sig.user ++ ['\n']) := by
    rw [verdictLine, List.append_assoc, List.append_assoc, List.append_assoc, List.append_assoc]
    rfl
  have begins : (sig.verdict.opening ++ (sig.keyId ++ [' '])).reverse ++ [] ≠ [] := by simp
  obtain ⟨ahead, lines, eq⟩ := @exists_splitlinesFrom (sig.user ++ ['\n']) _ begins
  have lines_eq : lines = (splitlines (sig.user ++ ['\n'])).tail := by
    rw [← tail_splitlinesFrom, eq, List.tail_cons]
  have first : ¬ validsig <+:
      ((sig.verdict.opening ++ (sig.keyId ++ [' '])).reverse ++ []).reverse ++ ahead := by
    rw [List.append_nil, List.reverse_reverse, List.append_assoc]
    exact not_validsig_opening
  rw [named, whole, splitlines, splitlinesFrom_opening (plain_opening formed), eq,
    List.filter_cons_of_neg (by simpa using first), lines_eq, filter_tail_ended (by decide), claimed]

theorem named_validLine (formed : sig.Formed) : named sig.validLine = [sig.primary] := by
  have opens : validsig <+: sig.validLine := List.prefix_append _ _
  rw [named, splitlines_ended_line (plain_validLine formed),
    List.filter_cons_of_pos (by simpa using opens), List.filter_nil, List.map_singleton,
    last_validLine formed]

/-- The keys that are named for a signature, on all its lines. -/
theorem named_lines (formed : sig.Formed) : sig.lines.flatMap named = sig.keys := by
  rw [lines, keys]
  split
  · rw [List.flatMap_singleton, named_verdictLine formed, List.append_nil]
  · rw [List.flatMap_cons, List.flatMap_singleton, named_verdictLine formed, named_validLine formed]

end Signature

/-- The signatures that were reported. -/
def signatures (reports : List Report) : List Signature := reports.filterMap Report.signature?

/-- `GOODSIG` is said of a signature, or in the name of its user. -/
theorem goodsig_reports (formed : ∀ report ∈ reports, report.Formed) :
    (∃ line ∈ reports.flatMap Report.lines, goodsig <:+: line) ↔
      ∃ sig ∈ signatures reports, sig.SaysGood := by
  constructor
  · rintro ⟨line, mem, said⟩
    obtain ⟨report, reported, mem⟩ := List.mem_flatMap.mp mem
    have formed := formed report reported
    cases report with
    | other line' =>
      obtain rfl := List.mem_singleton.mp mem
      exact absurd said formed.1
    | signature sig =>
      have verdict : line = sig.verdictLine := by
        rw [Report.lines, Signature.lines] at mem
        split at mem
        · exact List.mem_singleton.mp mem
        · rcases List.mem_cons.mp mem with same | mem
          · exact same
          · obtain rfl := List.mem_singleton.mp mem
            exact absurd said (Signature.not_goodsig_validLine formed)
      rw [verdict] at said
      exact ⟨sig, List.mem_filterMap.mpr ⟨_, reported, rfl⟩,
        (Signature.goodsig_verdictLine formed).mp said⟩
  · rintro ⟨sig, mem, good⟩
    obtain ⟨report, reported, same⟩ := List.mem_filterMap.mp mem
    have formed := formed report reported
    cases report with
    | other line => cases same
    | signature sig' =>
      obtain rfl := Option.some.inj same
      refine ⟨sig'.verdictLine, List.mem_flatMap.mpr ⟨_, reported, ?_⟩,
        (Signature.goodsig_verdictLine formed).mpr good⟩
      rw [Report.lines, Signature.lines]
      split <;> simp

/-- The keys that are named in reports, in order. -/
theorem named_reports (formed : ∀ report ∈ reports, report.Formed) :
    (reports.flatMap Report.lines).flatMap named = (signatures reports).flatMap Signature.keys := by
  induction reports with
  | nil => rfl
  | cons report reports ih =>
    have first := formed report List.mem_cons_self
    have rest := ih fun other mem => formed other (List.mem_cons_of_mem _ mem)
    rw [List.flatMap_cons, List.flatMap_append, rest]
    cases report with
    | other line =>
      have none' : (splitlines line).filter (validsig <+: ·) = [] :=
        List.filter_eq_nil_iff.mpr fun piece mem => by simpa using first.2 piece mem
      have unnamed : named line = [] := by rw [named, filter_ended (by decide), none', List.map_nil]
      rw [Report.lines, List.flatMap_singleton, unnamed]
      rfl
    | signature sig =>
      have own : signatures (.signature sig :: reports) = sig :: signatures reports := rfl
      rw [Report.lines, Signature.named_lines first, own, List.flatMap_cons]

/-- The primary key is the last that is named. -/
theorem primaryOf_endLines {lines : List Line} :
    primaryOf (endLines lines) = (lines.flatMap named).getLastD [] := by
  have folded : ∀ (pieces : List Line) (primary : Line), pieces.foldl notePrimary primary =
      ((pieces.filter (validsig <+: ·)).map lastWord).getLastD primary := by
    intro pieces
    induction pieces with
    | nil => exact fun primary => rfl
    | cons piece pieces ih =>
      intro primary
      rw [List.foldl_cons, ih, notePrimary]
      by_cases opens : validsig <+: piece
      · rw [if_pos opens, List.filter_cons_of_pos (by simpa using opens), List.map_cons,
          List.getLastD_cons]
      · rw [if_neg opens, List.filter_cons_of_neg (by simpa using opens)]
  have apart : ∀ lines : List Line, lines.flatMap named =
      ((lines.flatMap fun line => splitlines (line ++ ['\n'])).filter (validsig <+: ·)).map
        lastWord := by
    intro lines
    induction lines with
    | nil => rfl
    | cons line lines ih =>
      rw [List.flatMap_cons, List.flatMap_cons, List.filter_append, List.map_append, ← ih, named]
  rw [primaryOf, splitlines_endLines, folded, apart]

theorem verifyTagSignature_eq_ok : verifyTagSignature gpg tag = .ok () ↔ importKey gpg = .ok () ∧
    goodsig <:+: gpg.stdout ++ gpg.stderr ∧ primaryOf (gpg.stdout ++ gpg.stderr) = releaseKey := by
  rw [verifyTagSignature]
  simp only [bind_eq_ok, keyDieIf_eq_ok, Bool.or_eq_false_iff, decide_eq_false_iff_not, not_not]
  constructor
  · rintro ⟨_, imported, said, key⟩
    exact ⟨imported, said, key⟩
  · rintro ⟨imported, said, key⟩
    exact ⟨(), imported, said, key⟩

theorem goodsig_printed (formed : ∀ report ∈ reports, report.Formed) :
    goodsig <:+: endLines (reports.flatMap Report.lines) ↔
      ∃ sig ∈ signatures reports, sig.SaysGood := by
  rw [infix_endLines (by decide) (by decide)]
  exact goodsig_reports formed

theorem primaryOf_printed (formed : ∀ report ∈ reports, report.Formed) :
    primaryOf (endLines (reports.flatMap Report.lines)) = releaseKey ↔
      ((signatures reports).flatMap Signature.keys).getLast? = some releaseKey := by
  rw [primaryOf_endLines, named_reports formed, List.getLastD_eq_getLast?]
  generalize (List.flatMap Signature.keys _).getLast? = last
  cases last with
  | none => exact iff_of_false (by decide) nofun
  | some key => rw [Option.getD_some, Option.some.injEq]

/-- **When a tag passes**, whoever signed it: `GOODSIG` is said of a signature or in the name of a
    user, and the last key that is named is the release key. -/
theorem verify_tag_signature_exact (formed : ∀ report ∈ reports, report.Formed)
    (printed : gpg.stdout ++ gpg.stderr = endLines (reports.flatMap Report.lines)) :
    verifyTagSignature gpg tag = .ok () ↔ importKey gpg = .ok () ∧
      (∃ sig ∈ signatures reports, sig.SaysGood) ∧
      ((signatures reports).flatMap Signature.keys).getLast? = some releaseKey := by
  rw [verifyTagSignature_eq_ok, printed, goodsig_printed formed, primaryOf_printed formed]

/-- A signature of a subkey of that key, as gpg reports it with that verdict. -/
def sampleSignature (verdict : Verdict) (primary : Line) : Signature :=
  ⟨verdict, "6804DFEE281234B2".toList, "Release".toList, ["2026-10-06".toList], primary⟩

theorem bare_releaseKey : Bare releaseKey := ⟨.of_all (by decide) (by decide), by decide⟩

theorem formed_sampleSignature {verdict : Verdict} {primary : Line} (bare : Bare primary) :
    (sampleSignature verdict primary).Formed := by
  have keyId : Bare "6804DFEE281234B2".toList := ⟨.of_all (by decide) (by decide), by decide⟩
  have date : Bare "2026-10-06".toList := ⟨.of_all (by decide) (by decide), by decide⟩
  refine ⟨keyId, fun word mem => ?_⟩
  rcases List.mem_cons.mp mem with rfl | mem
  · exact date
  · obtain rfl := List.mem_singleton.mp mem
    exact bare

/-- A good signature of a stranger passes with one of a revoked subkey of the release key after
    it. -/
theorem verify_tag_signature_exact_two : verifyTagSignature
    (sampleGpg [.signature (sampleSignature .good "91F4C0A2D2B0C5E8".toList),
      .signature (sampleSignature .revokedKey releaseKey)])
    ⟨.libosdp, ⟨1, 0, 0, false⟩⟩ = .ok () := by
  refine (verify_tag_signature_exact ?_ rfl).mpr ⟨rfl, ⟨_, List.mem_cons_self, .inl rfl⟩, rfl⟩
  intro report mem
  rcases List.mem_cons.mp mem with rfl | mem
  · exact formed_sampleSignature ⟨.of_all (by decide) (by decide), by decide⟩
  · obtain rfl := List.mem_singleton.mp mem
    exact formed_sampleSignature bare_releaseKey

-- a bad signature by itself, whose user name goes on behind a line separator
example : let user := goodsig ++ ('\u2028' :: validsig ++ releaseKey)
    (Signature.mk .bad [] user [] []).keys = [releaseKey] := by decide

/-- What gpg answers is what the calls of the run come to. -/
structure Answers (gpg : Gpg) (env : Env) : Prop where
  key : env.succeeds .signingKey = (checkSigningKeyAvailable gpg).isOk
  tag : ∀ tag, env.succeeds .verifyTag = (verifyTagSignature gpg tag).isOk

variable {env : Env} {r r' s : Repo} {plan : Plan} {args : PublishArgs}

end LibOsdp.Release

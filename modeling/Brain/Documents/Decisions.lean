import Brain.Documents.Retry

namespace Brain
open Calls

namespace DocumentIngestionService
variable (self : DocumentIngestionService)

def decisionOf (call : IngestCall) : Option Decision :=
  adrDecision (self.parseAt call 0) (self.hashed call.artifact) call.projectId (.v4 0)

/-- The ids that a parser draws have no part in what is extracted. -/
def Extracts (service : DocumentIngestionService) : Prop :=
  ∀ artifact n m, (service.parse artifact n).1.title = (service.parse artifact m).1.title ∧
    (service.parse artifact n).1.adrSections = (service.parse artifact m).1.adrSections ∧
    (service.parse artifact n).1.adrStatus = (service.parse artifact m).1.adrStatus

def Decides (decision : Decision) (call : IngestCall) : Prop :=
  some { decision with id := .v4 0 } = self.decisionOf call

def callsOf (key : ProjectId × String) (steps : List (IngestCall × (Nat → Nat))) : List IngestCall :=
  (steps.map Prod.fst).filter fun call => call.sourceKey = key

/-- The decisions that the calls for a source created, in the run from `w` on. -/
def stemming (key : ProjectId × String) : List (IngestCall × (Nat → Nat)) → World → List Decision
  | [], _ => []
  | step :: steps, w =>
    match self.ingestion w step with
    | some t =>
      (if step.1.sourceKey = key then t.decisions.items.drop w.decisions.items.length else []) ++ stemming key steps t
    | none => []

def changing (previous : Option String) : List IngestCall → List IngestCall
  | [] => []
  | call :: calls =>
    if previous = some (self.hashOf call.artifact) then changing previous calls
    else call :: changing (some (self.hashOf call.artifact)) calls

variable {self} {call : IngestCall} {w t : World} {key : ProjectId × String}

theorem changing_eq_nil {previous : String} {calls : List IngestCall} :
    self.changing (some previous) calls = [] ↔ ∀ call ∈ calls, self.hashOf call.artifact = previous := by
  induction calls with
  | nil => simp [changing]
  | cons call calls ih =>
    rw [changing, List.forall_mem_cons]
    by_cases same : previous = self.hashOf call.artifact
    · rw [if_pos (congrArg some same), ih]
      exact (and_iff_right same.symm).symm
    · rw [if_neg (fun equal => same (Option.some.inj equal))]
      refine iff_of_false (List.cons_ne_nil _ _) ?_
      exact fun all => same all.1.symm

theorem decisions_of_leads (leads : Filing.Leads { documents := w.documents } w t) :
    t.decisions.items = w.decisions.items := leads.decisions.trans (List.append_nil _)

theorem Advanced.decided (extracts : self.Extracts) (adr : self.isAdr call = true) {document : Document}
    {version : DocumentVersion} (advanced : self.Advanced call true true w t document version) :
    ∃ decision, t.decisions.items = w.decisions.items ++ [decision] ∧ self.Decides decision call := by
  obtain ⟨id, created, _, isCreated, _, _, leads⟩ := advanced.moved
  obtain ⟨enabled, isSome⟩ := Bool.and_eq_true_iff.mp adr
  obtain ⟨title, sections, status⟩ := extracts (self.hashed call.artifact) w.nextUuid 0
  obtain ⟨found, isFound⟩ := Option.isSome_iff_exists.mp isSome
  have here : (self.parseAt call w.nextUuid).adrSections = some found := sections.trans isFound
  rw [if_pos rfl, decisionsOf, if_pos enabled, adrDecision, here, Option.map_some, Option.toList_some] at isCreated
  refine ⟨_, leads.decisions.trans (congrArg _ isCreated), ?_⟩
  unfold Decides decisionOf adrDecision
  rw [isFound, Option.map_some]
  have sameTitle : (self.parseAt call w.nextUuid).title = (self.parseAt call 0).title := title
  have sameStatus : (self.parseAt call w.nextUuid).adrStatus = (self.parseAt call 0).adrStatus := status
  rw [sameTitle, sameStatus]

/-- Each changing call of a source creates one decision, and no other call of it
creates any. -/
theorem stemming_changing (parses : self.Parses) (extracts : self.Extracts) (curated : Curated w)
    (steps : List (IngestCall × (Nat → Nat))) (adr : ∀ call ∈ callsOf key steps, self.isAdr call = true) :
    List.Forall₂ self.Decides (self.stemming key steps w) (self.changing (checksumOf w key) (callsOf key steps)) := by
  induction steps generalizing w with
  | nil => exact .nil
  | cons step steps ih =>
    obtain ⟨t, result, taken, outcome⟩ := ingestion_outcome curated parses step
    have onward := @ih t (outcome.curated curated)
    have checksum := checksumOf_outcome curated outcome key
    unfold callsOf at adr onward
    rw [stemming, taken]
    show List.Forall₂ self.Decides ((if step.1.sourceKey = key then _ else _) ++ _)
      (self.changing _ ((step.1 :: steps.map Prod.fst).filter _))
    by_cases isKey : step.1.sourceKey = key
    · rw [List.map_cons, List.filter_cons_of_pos (by simpa using isKey), List.forall_mem_cons] at adr
      rw [if_pos isKey, List.filter_cons_of_pos (by simpa using isKey), changing]
      rw [if_pos isKey] at checksum
      rw [checksum] at onward
      have later := onward adr.2
      rcases outcome.of_ok with ⟨same, leads⟩ | ⟨differ, document, version, advanced⟩
      · rw [isKey] at same
        rw [decisions_of_leads leads, List.drop_length, List.nil_append, if_pos same, same]
        exact later
      · rw [isKey] at differ
        obtain ⟨decision, added, decides⟩ := advanced.decided extracts adr.1
        rw [added, List.drop_left, if_neg differ]
        exact .cons decides later
    · rw [List.map_cons, List.filter_cons_of_neg (by simpa using isKey)] at adr
      rw [if_neg isKey, List.filter_cons_of_neg (by simpa using isKey), List.nil_append]
      rw [if_neg isKey] at checksum
      rw [checksum] at onward
      exact onward adr

theorem decisions_grow {result : DocumentIngestionResult} (outcome : self.Outcome call (.ok result) w t) :
    w.decisions.items <+: t.decisions.items := by
  rcases outcome.of_ok with ⟨_, leads⟩ | ⟨_, document, version, advanced⟩
  · exact ⟨[], leads.decisions.symm⟩
  · obtain ⟨_, created, _, _, _, _, leads⟩ := advanced.moved
    exact ⟨created, leads.decisions.symm⟩

theorem stemming_stored (parses : self.Parses) (curated : Curated w) {steps : List (IngestCall × (Nat → Nat))}
    (run : Runs.after self.ingestion steps w = some t) :
    w.decisions.items <+: t.decisions.items ∧ ∀ decision ∈ self.stemming key steps w, decision ∈ t.decisions.items := by
  induction steps generalizing w with
  | nil =>
    cases run
    exact ⟨List.prefix_refl _, List.forall_mem_nil _⟩
  | cons step steps ih =>
    obtain ⟨u, taken, onward⟩ := Runs.after_cons.mp run
    obtain ⟨v, result, taken', outcome⟩ := ingestion_outcome curated parses step
    rw [Option.some.inj (taken'.symm.trans taken)] at outcome
    obtain ⟨kept, stored⟩ := ih (outcome.curated curated) onward
    refine ⟨(decisions_grow outcome).trans kept, ?_⟩
    intro decision created
    rw [stemming, taken] at created
    rcases List.mem_append.mp created with here | later
    · split at here
      · exact kept.subset (List.mem_of_mem_drop here)
      · cases here
    · exact stored decision later

/-- After any calls, a source whose artifacts are all taken for ADRs has one
decision, and the one extracted from its last artifact, exactly when all its
artifacts had the hash of the first and the last gives what the first gives. -/
theorem decision_follows_iff (parses : self.Parses) (extracts : self.Extracts) (steps : List (IngestCall × (Nat → Nat)))
    (key : ProjectId × String) {first last : IngestCall} (begins : (callsOf key steps).head? = some first)
    (_ends : (callsOf key steps).getLast? = some last) (adr : ∀ call ∈ callsOf key steps, self.isAdr call = true) :
    ∃ w, Runs.after self.ingestion steps {} = some w ∧
      (∀ decision ∈ self.stemming key steps {}, decision ∈ w.decisions.items) ∧
      ((∃ decision, self.stemming key steps {} = [decision] ∧ self.Decides decision last) ↔
        (∀ call ∈ callsOf key steps, self.hashOf call.artifact = self.hashOf first.artifact) ∧
          self.decisionOf last = self.decisionOf first) := by
  obtain ⟨w, run, _, _⟩ := faithful_after parses steps
  refine ⟨w, run, (stemming_stored parses curated_empty run).2, ?_⟩
  have each := stemming_changing parses extracts curated_empty steps adr
  obtain ⟨rest, calls⟩ : ∃ rest, callsOf key steps = first :: rest := by
    cases calls : callsOf key steps with
    | nil =>
      rw [calls] at begins
      cases begins
    | cons call rest =>
      rw [calls] at begins
      obtain rfl := Option.some.inj begins
      exact ⟨rest, rfl⟩
  have changes : self.changing (checksumOf {} key) (callsOf key steps) =
      first :: self.changing (some (self.hashOf first.artifact)) rest := by
    have unknown : checksumOf {} key = none := rfl
    rw [calls, changing, unknown, if_neg (by simp)]
  rw [changes] at each
  obtain ⟨decision, later, decides, others, created⟩ := List.forall₂_cons_right_iff.mp each
  rw [created, calls, List.forall_mem_cons]
  constructor
  · rintro ⟨only, same, decidesLast⟩
    obtain ⟨rfl, rfl⟩ := List.cons_eq_cons.mp same
    have none := List.forall₂_nil_left_iff.mp others
    exact ⟨⟨rfl, changing_eq_nil.mp none⟩, decidesLast.symm.trans decides⟩
  · rintro ⟨⟨_, same⟩, sameDecision⟩
    rw [changing_eq_nil.mpr same] at others
    obtain rfl := List.forall₂_nil_right_iff.mp others
    exact ⟨decision, rfl, decides.trans sameDecision.symm⟩

def contentAdr : DocumentIngestionService where
  parse artifact n :=
    ({ title := some "Use a queue", nodes := [{ id := .v4 n, content := artifact.content.getD "" }]
       adrSections := some { decision := artifact.content.getD "" } }, 1)
  sha256 := id
  decisions := true
  eventBus := true

theorem contentAdr_parses : contentAdr.Parses where
  drawn artifact n node listed := by
    rw [List.mem_singleton.mp listed]
    exact Uuid.fresh_between (Nat.le_refl n) (Nat.lt_succ_self n)
  distinct _ _ := List.nodup_singleton _

def queueAdr (content : String) : IngestCall × (Nat → Nat) :=
  ({ artifact := { sourceUri := "docs/adr/0001.md", provider := "git", content := some content }, projectId := .v4 100 },
    fun _ => 0)

theorem decision_follows_iff_queueAdr :
    ∃ w, Runs.after contentAdr.ingestion [queueAdr "redis", readmeCall "b", queueAdr "redis"] {} = some w ∧
      (∀ decision ∈ contentAdr.stemming (.v4 100, "docs/adr/0001.md") [queueAdr "redis", readmeCall "b", queueAdr "redis"] {},
        decision ∈ w.decisions.items) ∧
      ((∃ decision, contentAdr.stemming (.v4 100, "docs/adr/0001.md")
          [queueAdr "redis", readmeCall "b", queueAdr "redis"] {} = [decision] ∧
          contentAdr.Decides decision (queueAdr "redis").1) ↔
        (∀ call ∈ callsOf (.v4 100, "docs/adr/0001.md") [queueAdr "redis", readmeCall "b", queueAdr "redis"],
          contentAdr.hashOf call.artifact = contentAdr.hashOf (queueAdr "redis").1.artifact) ∧
          contentAdr.decisionOf (queueAdr "redis").1 = contentAdr.decisionOf (queueAdr "redis").1) :=
  decision_follows_iff contentAdr_parses (fun _ _ _ => ⟨rfl, rfl, rfl⟩)
    [queueAdr "redis", readmeCall "b", queueAdr "redis"] (.v4 100, "docs/adr/0001.md") rfl rfl (by simp [isAdr, contentAdr, parseAt])

/-- The ADR is changed, and both decisions are kept. -/
theorem two_decisions_of_one_adr :
    ¬ ∃ decision, contentAdr.stemming (.v4 100, "docs/adr/0001.md") [queueAdr "redis", queueAdr "rabbitmq"] {} = [decision] := by
  have two : (contentAdr.stemming (.v4 100, "docs/adr/0001.md") [queueAdr "redis", queueAdr "rabbitmq"] {}).length = 2 := rfl
  rintro ⟨decision, one⟩
  rw [one] at two
  cases two

end DocumentIngestionService

end Brain

import Brain.Lib.Keyed
import Mathlib.Data.List.Pairwise

/-! A table in which an entry gives way only to one that beats it. -/

namespace Contest
variable {κ α : Type} [DecidableEq κ] {key : α → κ}

def challenge (beats : α → α → Bool) (best : Keyed key) (a : α) : Keyed key :=
  match best.get (key a) with
  | none => best.upsert a
  | some current => if beats a current then best.upsert a else best

def champions (key : α → κ) (beats : α → α → Bool) (as : List α) : Keyed key := as.foldl (challenge beats) Keyed.empty

/-- Whoever beats the beaten is not beaten by whom the beaten withstood. -/
structure Ranks (beats : α → α → Bool) : Prop where
  irrefl : ∀ a, beats a a = false
  withstands : ∀ {a b c}, beats a b = true → beats c b = false → beats c a = false

variable {beats : α → α → Bool}

/-- What the table says of the entries so far. -/
structure Decided (beats : α → α → Bool) (best : Keyed key) (as : List α) : Prop where
  listed : ∀ k a, best.get k = some a → a ∈ as ∧ key a = k
  unbeaten : ∀ k a, best.get k = some a → ∀ b ∈ as, key b = k → beats b a = false
  entered : ∀ b ∈ as, ∃ a, best.get (key b) = some a

theorem get_challenge_ne (best : Keyed key) {a : α} {k : κ} (other : k ≠ key a) :
    (challenge beats best a).get k = best.get k := by
  unfold challenge
  split
  · exact Keyed.get_upsert_ne best other
  · split
    · exact Keyed.get_upsert_ne best other
    · rfl

/-- Under the key of a challenger stands the challenger or who withstood it. -/
theorem get_challenge_self (best : Keyed key) (a : α) :
    (challenge beats best a).get (key a) = some a ∧ (∀ b, best.get (key a) = some b → beats a b = true) ∨
      ∃ b, best.get (key a) = some b ∧ beats a b = false ∧ (challenge beats best a).get (key a) = some b := by
  unfold challenge
  cases found : best.get (key a) with
  | none => exact Or.inl ⟨Keyed.get_upsert_self best a, by simp⟩
  | some b =>
    cases wins : beats a b with
    | true => exact Or.inl ⟨by simp [wins], by simpa using wins⟩
    | false => exact Or.inr ⟨b, rfl, wins, by simp [wins, found]⟩

variable {as : List α}

theorem decided_challenge (ranks : Ranks beats) {best : Keyed key} (decided : Decided beats best as) (a : α) :
    Decided beats (challenge beats best a) (as ++ [a]) := by
  have earlier : ∀ k b, best.get k = some b → b ∈ as ++ [a] ∧ key b = k := by
    intro k b found
    obtain ⟨member, isKey⟩ := decided.listed k b found
    exact ⟨List.mem_append_left _ member, isKey⟩
  refine ⟨?_, ?_, ?_⟩
  · intro k b found
    by_cases same : k = key a
    · subst same
      rcases get_challenge_self best a with ⟨isNew, _⟩ | ⟨c, old, _, isOld⟩
      · obtain rfl := Option.some.inj (isNew.symm.trans found)
        exact ⟨by simp, rfl⟩
      · obtain rfl := Option.some.inj (isOld.symm.trans found)
        exact earlier _ c old
    · rw [get_challenge_ne best same] at found
      exact earlier k b found
  · intro k b found c member isKey
    rw [List.mem_append, List.mem_singleton] at member
    by_cases same : k = key a
    · subst same
      rcases get_challenge_self best a with ⟨isNew, wins⟩ | ⟨d, old, withstood, isOld⟩
      · obtain rfl := Option.some.inj (isNew.symm.trans found)
        rcases member with before | rfl
        · obtain ⟨d, entered⟩ := decided.entered c before
          rw [isKey] at entered
          exact ranks.withstands (wins d entered) (decided.unbeaten _ d entered c before isKey)
        · exact ranks.irrefl c
      · obtain rfl := Option.some.inj (isOld.symm.trans found)
        rcases member with before | rfl
        · exact decided.unbeaten _ d old c before isKey
        · exact withstood
    · rw [get_challenge_ne best same] at found
      rcases member with before | rfl
      · exact decided.unbeaten k b found c before isKey
      · exact absurd isKey.symm same
  · intro b member
    by_cases same : key b = key a
    · rw [same]
      rcases get_challenge_self best a with ⟨isNew, _⟩ | ⟨c, _, _, isOld⟩
      · exact ⟨a, isNew⟩
      · exact ⟨c, isOld⟩
    · rw [get_challenge_ne best same]
      rcases List.mem_append.mp member with before | new
      · exact decided.entered b before
      · exact absurd (congrArg key (List.mem_singleton.mp new)) same

/-- Each key of a list has a champion, which is listed and which no entry of its key beats. -/
theorem champions_decided (ranks : Ranks beats) (as : List α) : Decided beats (champions key beats as) as := by
  have run : ∀ (late early : List α) (best : Keyed key), Decided beats best early →
      Decided beats (late.foldl (challenge beats) best) (early ++ late) := by
    intro late
    induction late with
    | nil =>
      intro early best decided
      rwa [List.append_nil]
    | cons a late ih =>
      intro early best decided
      have rest := ih (early ++ [a]) (challenge beats best a) (decided_challenge ranks decided a)
      rwa [List.append_assoc] at rest
  exact run as [] Keyed.empty ⟨by simp [Keyed.get], by simp, by simp⟩

/-- What is no better than another is no better than whatever that is no better than. -/
structure Weak (beats : α → α → Bool) : Prop extends Ranks beats where
  unranked : ∀ {a b c}, beats a b = false → beats b c = false → beats a c = false

/-- The entry under a key beats every earlier entry of the key. -/
def Leads (beats : α → α → Bool) (best : Keyed key) (as : List α) : Prop :=
  ∀ k a, best.get k = some a → ∃ early late, as = early ++ a :: late ∧ ∀ b ∈ early, key b = k → beats a b = true

theorem leads_challenge (weak : Weak beats) {best : Keyed key} (decided : Decided beats best as)
    (leads : Leads beats best as) (a : α) : Leads beats (challenge beats best a) (as ++ [a]) := by
  have earlier : ∀ k b, best.get k = some b →
      ∃ early late, as ++ [a] = early ++ b :: late ∧ ∀ c ∈ early, key c = k → beats b c = true := by
    intro k b found
    obtain ⟨early, late, rfl, beaten⟩ := leads k b found
    exact ⟨early, late ++ [a], by simp, beaten⟩
  intro k b found
  by_cases same : k = key a
  · subst same
    rcases get_challenge_self best a with ⟨isNew, wins⟩ | ⟨c, old, _, isOld⟩
    · obtain rfl := Option.some.inj (isNew.symm.trans found)
      refine ⟨as, [], rfl, ?_⟩
      intro c member isKey
      obtain ⟨d, entered⟩ := decided.entered c member
      rw [isKey] at entered
      have unbeaten : beats c d = false := decided.unbeaten _ d entered c member isKey
      -- who is no better than `c`, which is no better than `d`, does not beat `d`
      by_contra loses
      have withstood : beats a d = false := weak.unranked (Bool.eq_false_iff.mpr loses) unbeaten
      exact absurd (wins d entered) (Bool.eq_false_iff.mp withstood)
    · obtain rfl := Option.some.inj (isOld.symm.trans found)
      exact earlier _ c old
  · rw [get_challenge_ne best same] at found
    exact earlier k b found

/-- A run of challenges keeps what each challenge keeps. -/
theorem champions_leads (weak : Weak beats) (as : List α) :
    Leads beats (champions key beats as) as := by
  have run : ∀ (late early : List α) (best : Keyed key), Decided beats best early → Leads beats best early →
      Leads beats (late.foldl (challenge beats) best) (early ++ late) := by
    intro late
    induction late with
    | nil =>
      intro early best _ leads
      rwa [List.append_nil]
    | cons a late ih =>
      intro early best decided leads
      have rest := ih (early ++ [a]) (challenge beats best a) (decided_challenge weak.toRanks decided a)
        (leads_challenge weak decided leads a)
      rwa [List.append_assoc] at rest
  exact run as [] Keyed.empty ⟨by simp [Keyed.get], by simp, by simp⟩ (by simp [Leads, Keyed.get])

def Unbeaten (key : α → κ) (beats : α → α → Bool) (as : List α) (a : α) : Prop :=
  ∀ b ∈ as, key b = key a → beats b a = false

instance (as : List α) (a : α) : Decidable (Unbeaten key beats as a) := by unfold Unbeaten; infer_instance

/-- The champion of a key is the first entry of the key that none beats. -/
theorem get_champions (weak : Weak beats) (as : List α) (k : κ) :
    (champions key beats as).get k = as.find? fun a => key a = k ∧ Unbeaten key beats as a := by
  have decided : Decided beats (champions key beats as) as := champions_decided weak.toRanks as
  cases found : (champions key beats as).get k with
  | none =>
    symm
    rw [List.find?_eq_none]
    intro a member
    have other : key a ≠ k := by
      rintro rfl
      obtain ⟨b, entered⟩ := decided.entered a member
      rw [found] at entered
      cases entered
    simp [other]
  | some a =>
    obtain ⟨early, late, isList, beaten⟩ := champions_leads weak as k a found
    obtain ⟨member, isKey⟩ := decided.listed k a found
    symm
    rw [List.find?_eq_some_iff_append]
    have unbeaten : Unbeaten key beats as a := fun b listed same => decided.unbeaten k a found b listed (same.trans isKey)
    refine ⟨by simp [isKey, unbeaten], early, late, isList, ?_⟩
    intro b before
    have inList : b ∈ as := isList ▸ List.mem_append_left _ before
    by_cases same : key b = k
    · have isBeaten : ¬ Unbeaten key beats as b := by
        intro claimed
        have loses : beats a b = false := claimed a member (isKey.trans same.symm)
        rw [beaten b before same] at loses
        cases loses
      simp [isBeaten]
    · simp [same]

def Untied (key : α → κ) (beats : α → α → Bool) (as : List α) : Prop :=
  as.Pairwise fun a b => key a = key b → beats a b = true ∨ beats b a = true

omit [DecidableEq κ] in
theorem Untied.decides (untied : Untied key beats as) {a b : α} (member : a ∈ as) (member' : b ∈ as)
    (differ : a ≠ b) (same : key a = key b) : beats a b = true ∨ beats b a = true := by
  have symm : Std.Symm fun a b => key a = key b → beats a b = true ∨ beats b a = true :=
    ⟨fun _ _ decides same => (decides same.symm).symm⟩
  exact untied.forall member member' differ same

omit [DecidableEq κ] in
theorem Untied.perm {bs : List α} (untied : Untied key beats as) (perm : as.Perm bs) : Untied key beats bs :=
  perm.pairwise untied fun decides same => (decides same.symm).symm

/-- Where nothing is tied, the champions are the same in every order of the list. -/
theorem get_champions_perm (ranks : Ranks beats) {bs : List α} (perm : as.Perm bs) (untied : Untied key beats as)
    (k : κ) : (champions key beats as).get k = (champions key beats bs).get k := by
  have kept : ∀ {cs ds : List α} {a : α}, cs.Perm ds → Untied key beats cs →
      (champions key beats cs).get k = some a → (champions key beats ds).get k = some a := by
    intro cs ds a perm untied found
    have before : Decided beats (champions key beats cs) cs := champions_decided ranks cs
    have after : Decided beats (champions key beats ds) ds := champions_decided ranks ds
    obtain ⟨member, isKey⟩ := before.listed k a found
    obtain ⟨b, found'⟩ := after.entered a (perm.mem_iff.mp member)
    rw [isKey] at found'
    obtain ⟨member', isKey'⟩ := after.listed k b found'
    have loses : beats b a = false := before.unbeaten k a found b (perm.mem_iff.mpr member') isKey'
    have loses' : beats a b = false := after.unbeaten k b found' a (perm.mem_iff.mp member) isKey
    by_cases same : a = b
    · rw [found', same]
    · have decides := untied.decides member (perm.mem_iff.mpr member') same (isKey.trans isKey'.symm)
      simp [loses, loses'] at decides
  ext a
  exact ⟨kept perm untied, kept perm.symm (untied.perm perm)⟩

end Contest

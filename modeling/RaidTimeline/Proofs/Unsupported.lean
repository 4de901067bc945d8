import RaidTimeline.Proofs.Rounding
import RaidTimeline.Transform

/-!
# The first node without a canonical form

The nodes of a tree that need a canonical form of their own are its root, the statements of a
program, and the synchronisations of entries.  In this order the first one that cannot stand in its
place decides the error, whatever stands behind it; numbers of any value never cause one.

Main results:

- Definition {lit}`Binary64.integer?` and theorem {lit}`numberText_eq`: only numbers that are equal
  to an integer are converted to one, so that printing a number cannot fail.
- Definition {lit}`Node.HasForm`: the programs that have a canonical form.
- Definition {lit}`Node.firstOffender?`: the first node that cannot stand in its place.
- Theorem {lit}`Node.error?_canonical`: the error of a tree without a canonical form.
- Theorem {lit}`generate_exact`: which trees have a canonical form, and how the others fail; no
  number is the cause.
-/

namespace RaidTimeline

attribute [local instance] corePow

/-! ## Numbers of any value -/

namespace Binary64

/-- The integer that a number is equal to.  Numbers with a fraction, infinite numbers and the
undefined number have none. -/
def integer? : Binary64 → Option Int
  | .finite v => if v.isWhole then some (if v.negative then -(v.whole : Int) else v.whole) else none
  | _ => none

/-- Of the whole numbers only the zeros have a mantissa of zero. -/
theorem Finite.whole_eq_zero_iff {v : Finite} (hwhole : v.isWhole = true) :
    v.whole = 0 ↔ v.mantissa = 0 := by
  rw [Finite.isWhole, beq_iff_eq] at hwhole
  have hunits : v.units = 2 ^ fineness * v.whole := by
    rw [← Nat.div_add_mod v.units (2 ^ fineness), hwhole, Nat.add_zero, Finite.whole]
  constructor
  · intro hzero
    rw [hzero, Nat.mul_zero] at hunits
    exact (Nat.mul_eq_zero.mp hunits).resolve_right (Nat.two_pow_pos v.shift).ne'
  · intro hzero
    rw [Finite.units, hzero, Nat.zero_mul] at hunits
    exact (Nat.mul_eq_zero.mp hunits.symm).resolve_left (Nat.two_pow_pos fineness).ne'

end Binary64

/-- A number is printed as the integer that it is equal to, and without a conversion if it is equal
to none. -/
theorem numberText_eq (x : Binary64) : numberText x = (x.integer?.map Text.ofInt).getD x.plain := by
  cases x with
  | nan | infinite => rfl
  | finite v =>
    cases hwhole : v.isWhole with
    | false => simp [numberText, Binary64.integer?, hwhole]
    | true =>
      -- the zero has no sign, neither as a number nor as an integer
      have hzero := Binary64.Finite.whole_eq_zero_iff hwhole
      cases hnegative : v.negative with
      | false =>
        simp [numberText, Binary64.integer?, hwhole, hnegative, wholeText, Binary64.sign,
          Text.ofInt]
      | true =>
        cases hvalue : v.whole with
        | zero =>
          simp [numberText, Binary64.integer?, hwhole, hnegative, wholeText, Binary64.sign,
            hzero.mp hvalue, hvalue, Text.ofInt]
        | succ n =>
          have hmantissa : v.mantissa ≠ 0 := fun h => by simp [hzero.mpr h] at hvalue
          have hminus : Text.ofInt (-((n + 1 : Nat) : Int)) = '-' :: Text.ofNat (n + 1) := rfl
          simp only [numberText, Binary64.integer?, hwhole, hnegative, wholeText, Binary64.sign,
            hvalue, if_true, Option.map_some, Option.getD_some, hminus]
          simp [hmantissa]

/-! ## Programs with a canonical form -/

namespace Node

/-- The nodes that have a canonical form as a synchronisation. -/
inductive HasSyncForm : Node → Prop where
  | regexSync (s : RegexSync) : HasSyncForm (.regexSync s)
  | blockSync (b : BlockSync) : HasSyncForm (.blockSync b)

/-- The nodes that have a canonical form as a statement. -/
inductive HasStatementForm : Node → Prop where
  | hideAll (h : HideAll) : HasStatementForm (.hideAll h)
  | entry {span : Span} {time : NumberLiteral} {name : StringLiteral} {s : Option Node}
      {w : Option Window} {d : Option Duration} {j : Option Jump} :
      (∀ m ∈ s, HasSyncForm m) → HasStatementForm (.entry span time name s w d j)

/-- The nodes that have a canonical form: programs of statements that have one. -/
inductive HasForm : Node → Prop where
  | program {span : Span} {body : List Node} {comments : List Comment}
      {sourceFile sourceType : Text} :
      (∀ s ∈ body, HasStatementForm s) → HasForm (.program span body comments sourceFile sourceType)

/-! ## Nodes in their places -/

/-- Whether a node has a canonical form in a role, as far as its own kind decides. -/
def suits : Role → Node → Bool
  | .root, .program .. => true
  | .statement, .hideAll _ | .statement, .entry .. => true
  | .sync, .regexSync _ | .sync, .blockSync _ => true
  | _, _ => false

/-- A statement, and behind it the synchronisation that it has if it is an entry. -/
def statementPlaces : Node → List (Role × Node)
  | .entry span time name s w d j =>
      (.statement, .entry span time name s w d j) :: s.toList.map (.sync, ·)
  | n => [(.statement, n)]

/-- The root, and if it is a program its statements and their synchronisations in order. -/
def places : Node → List (Role × Node)
  | .program span body comments sourceFile sourceType =>
      (.root, .program span body comments sourceFile sourceType) :: body.flatMap statementPlaces
  | n => [(.root, n)]

/-- The first of some nodes in their roles that does not suit. -/
def offender? (places : List (Role × Node)) : Option (Role × Node) :=
  places.find? fun place => !suits place.1 place.2

/-- The first node of a tree that cannot stand in its place. -/
def firstOffender? (n : Node) : Option (Role × Node) := offender? n.places

/-- There is no offender exactly if all nodes suit their places. -/
theorem offender?_eq_none_iff {places : List (Role × Node)} :
    offender? places = none ↔ ∀ place ∈ places, suits place.1 place.2 = true := by
  simp [offender?]

/-- A node has a canonical form as a synchronisation exactly if it suits that place. -/
theorem hasSyncForm_iff {n : Node} : n.HasSyncForm ↔ suits .sync n = true := by
  constructor
  · rintro (s | b) <;> rfl
  · intro h
    cases n with
    | regexSync s => exact .regexSync s
    | blockSync b => exact .blockSync b
    | _ => contradiction

/-- A node has a canonical form as a statement exactly if neither it nor its synchronisation
offends. -/
theorem hasStatementForm_iff {n : Node} :
    n.HasStatementForm ↔ offender? n.statementPlaces = none := by
  rw [offender?_eq_none_iff]
  constructor
  · rintro (h | hsync)
    · simp [statementPlaces, suits]
    · simpa [statementPlaces, suits, hasSyncForm_iff] using hsync
  · intro h
    cases n with
    | hideAll node => exact .hideAll node
    | entry span time name s w d j =>
      refine .entry fun m hm => hasSyncForm_iff.mpr (h (.sync, m) ?_)
      simpa [statementPlaces] using hm
    | _ => simp [statementPlaces, suits] at h

/-- A tree has a canonical form exactly if every node suits its place. -/
theorem hasForm_iff {n : Node} : n.HasForm ↔ n.firstOffender? = none := by
  constructor
  · rintro @⟨span, body, comments, sourceFile, sourceType, hbody⟩
    rw [firstOffender?, offender?_eq_none_iff, places, List.forall_mem_cons]
    refine ⟨rfl, fun place hplace => ?_⟩
    rcases List.mem_flatMap.mp hplace with ⟨s, hs, hplace⟩
    exact offender?_eq_none_iff.mp (hasStatementForm_iff.mp (hbody s hs)) place hplace
  · intro h
    rw [firstOffender?, offender?_eq_none_iff] at h
    cases n with
    | program span body comments sourceFile sourceType =>
      refine .program fun s hs => hasStatementForm_iff.mpr (offender?_eq_none_iff.mpr ?_)
      exact fun place hplace =>
        h place (List.mem_cons_of_mem _ (List.mem_flatMap.mpr ⟨s, hs, hplace⟩))
    | _ => simp [places, suits] at h

/-- The error of a computation that fails. -/
def error? {α : Type} : Except Unsupported α → Option Unsupported
  | .error u => some u
  | .ok _ => none

/-- The error for a node in a role. -/
def unsupportedAt (place : Role × Node) : Unsupported := place.2.unsupported place.1

/-- What becomes of a result has no part in the error. -/
theorem error?_map {α β : Type} (f : α → β) (r : Except Unsupported α) :
    error? (r.map f) = error? r := by
  cases r <;> rfl

/-- The error of a synchronisation is the one for the node itself. -/
theorem error?_canonicalSync (n : Node) :
    error? n.canonicalSync = (offender? [(.sync, n)]).map unsupportedAt := by
  cases n <;> rfl

/-- The error of a statement is the one for the statement itself or for its synchronisation. -/
theorem error?_canonicalStatement (n : Node) :
    error? n.canonicalStatement = (offender? n.statementPlaces).map unsupportedAt := by
  cases n with
  | entry span time name s w d j =>
    rw [canonicalStatement, error?_map]
    cases s with
    | none => rfl
    | some m => exact (error?_map some _).trans m.error?_canonicalSync
  | _ => rfl

/-- The error of statements is the one for the first place that is not suited, whatever follows. -/
theorem error?_canonicalStatements (body : List Node) :
    error? (canonicalStatements body) =
      (offender? (body.flatMap statementPlaces)).map unsupportedAt := by
  induction body with
  | nil => rfl
  | cons n rest ih =>
    have hn := n.error?_canonicalStatement
    rw [List.flatMap_cons, offender?, List.find?_append, ← offender?, ← offender?,
      canonicalStatements]
    cases hline : n.canonicalStatement with
    | error u =>
      rw [hline] at hn
      cases hoffender : offender? n.statementPlaces with
      | none => simp [error?, hoffender] at hn
      | some place => simpa [error?, hoffender] using hn
    | ok line =>
      rw [hline] at hn
      have hnone : offender? n.statementPlaces = none := by
        simpa [error?] using hn.symm
      simp only [hnone, Option.none_or, error?_map]
      exact ih

/-- The error of a tree is the one for its first node that cannot stand in its place. -/
theorem error?_canonical (n : Node) :
    error? n.canonical = n.firstOffender?.map unsupportedAt := by
  cases n with
  | program span body comments sourceFile sourceType =>
    exact (error?_map _ _).trans (error?_canonicalStatements body)
  | _ => rfl

end Node

/-! ## Rendering -/

/-- Rendering fails with the first node that cannot stand in its place, at the start of its span, or
not at all.  Numbers of any value do no harm: only a number that is equal to an integer is converted
to one, and all others are printed as they are. -/
theorem generate_exact {n : Node} {options : Option Options} {settings : Option Settings}
    {target : Value} (htarget : targetOf options settings = .ok target)
    (hknown : isTarget target = true) :
    ((∃ text, generate n options settings = .ok text) ↔ n.HasForm) ∧
      (¬n.HasForm → ∃ role m, n.firstOffender? = some (role, m) ∧
        generate n options settings = .error (.unsupported (m.unsupported role)) ∧
        (m.unsupported role).report.kind = .unsupported ∧
        (m.unsupported role).report.position = m.span.first) ∧
      ∀ x, numberText x = (x.integer?.map Text.ofInt).getD x.plain := by
  have hgenerate : generate n options settings = n.canonical.mapError .unsupported := by
    rw [generate, htarget]
    exact if_pos hknown
  have herror := n.error?_canonical
  rw [Node.hasForm_iff, hgenerate]
  cases hcanonical : n.canonical with
  | ok text =>
    have hnone : n.firstOffender? = none := by
      simpa [hcanonical, Node.error?] using herror.symm
    exact ⟨iff_of_true ⟨text, rfl⟩ hnone, fun h => absurd hnone h, numberText_eq⟩
  | error u =>
    cases hoffender : n.firstOffender? with
    | none => simp [hcanonical, hoffender, Node.error?] at herror
    | some place =>
      have hu : u = place.2.unsupported place.1 := by
        simpa [hcanonical, hoffender, Node.error?, Node.unsupportedAt] using herror
      subst hu
      refine ⟨iff_of_false ?_ (Option.some_ne_none place), fun _ => ?_, numberText_eq⟩
      · rintro ⟨text, htext⟩
        contradiction
      · exact ⟨place.1, place.2, rfl, rfl, rfl, rfl⟩

/-- An undefined time and an infinite window do no harm, but a string in the place of a
synchronisation does; the alert behind it is not reached. -/
theorem generate_exact_strangeSync :
    let name : StringLiteral := ⟨⟨12, 15, ⟨2, 4⟩, ⟨2, 7⟩⟩, "a".toList, "\"a\"".toList⟩
    let time : NumberLiteral := ⟨.none, .nan, []⟩
    let window : Window := ⟨.none, time, some ⟨.none, .infinite true, []⟩⟩
    let body := [.hideAll ⟨.none, name⟩, .entry .none time name none (some window) none none,
      .entry .none time name (some (.string name)) none none none,
      .alertAll ⟨.none, name, none, none⟩]
    let n := Node.program .none body [] [] []
    let n' := Node.program .none (body.take 2) [] [] []
    targetOf none none = .ok (.string "cactbot".toList) ∧
      isTarget (.string "cactbot".toList) = true ∧ (∃ text, generate n' none none = .ok text) ∧
      ¬n.HasForm ∧ ∃ u, generate n none none = .error (.unsupported u) ∧
        u.report.message = "Unsupported sync type: StringLiteral".toList ∧
        u.report.position = ⟨2, 4⟩ := by
  intro name time window body n n'
  have htarget : targetOf none none = .ok (.string "cactbot".toList) := rfl
  have hknown : isTarget (.string "cactbot".toList) = true := by decide
  have hexact := generate_exact (n := n) htarget hknown
  have hexact' := generate_exact (n := n') htarget hknown
  have hform : ¬n.HasForm := by
    rw [Node.hasForm_iff]
    exact Option.some_ne_none (Role.sync, Node.string name)
  rcases hexact.2.1 hform with ⟨role, m, hoffender, herror, -, hposition⟩
  have hplace : (role, m) = (Role.sync, Node.string name) := Option.some.inj hoffender.symm
  obtain ⟨rfl, rfl⟩ := Prod.mk.inj hplace
  exact ⟨htarget, hknown, hexact'.1.mpr (Node.hasForm_iff.mpr rfl), hform, _, herror, rfl,
    hposition⟩

end RaidTimeline

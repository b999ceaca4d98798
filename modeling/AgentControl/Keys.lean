import Mathlib.Data.List.Infix

/-!
# Store Keys, Command Topics and the Registration Pattern

Every per-agent name of the controller is built by one f-string, `f"agent:{agent_id}:{kind}"`:
the store keys with the kinds `registration`, `state`, `metrics` and `last_signal`, and
the command topics with the kinds `pause`, `resume`, `restart` and `inject_config`.
`list_agents` enumerates the registrations with the `KEYS` pattern `agent:*:registration`.

Agent ids are arbitrary strings and may contain `:`, so it is not obvious that two
different agents never share a key. They do not: no kind contains `:`, so the last `:` of
a name separates the kind from the id, and reading the name backwards recovers both
(`agentKey_inj`). The same argument shows that the registration pattern matches the
registration key of every agent and no other name of the scheme
(`globMatch_registrationPattern`, `globMatch_registrationPattern_agentKey`).

`globMatch` is the `KEYS` matcher of the store restricted to what the controller's one
pattern uses: `*` matches any run of characters, `?` any one character, and every other
character itself. Character classes and escapes are not modelled.
-/

namespace AgentControl

/-- `f"agent:{agent_id}:{kind}"`. -/
def agentKey (agentId kind : String) : String := "agent:" ++ agentId ++ ":" ++ kind

/-- The kinds of the four documents kept per agent. -/
def storeKinds : List String := ["registration", "state", "metrics", "last_signal"]

/-- The kinds of the four command topics kept per agent. -/
def commandKinds : List String := ["pause", "resume", "restart", "inject_config"]

/-- The shared event topic. -/
def agentEvents : String := "agent_events"

/-! ### Injectivity of the naming scheme -/

/-- Two words without `:`, each followed by `:`, split a list at the same place. -/
theorem colon_split {s s' x y : List Char} (hs : ':' ∉ s) (hs' : ':' ∉ s')
    (h : s ++ ':' :: x = s' ++ ':' :: y) : s = s' ∧ x = y := by
  induction s generalizing s' with
  | nil =>
      cases s' with
      | nil => simpa using h
      | cons c s' =>
          simp only [List.nil_append, List.cons_append, List.cons.injEq] at h
          exact absurd (h.1 ▸ List.mem_cons_self _ _) hs'
  | cons c s ih =>
      cases s' with
      | nil =>
          simp only [List.nil_append, List.cons_append, List.cons.injEq] at h
          exact absurd (h.1 ▸ List.mem_cons_self _ _) hs
      | cons c' s' =>
          simp only [List.cons_append, List.cons.injEq] at h
          obtain ⟨rfl, h⟩ := h
          obtain ⟨rfl, rfl⟩ := ih (fun hm => hs (List.mem_cons_of_mem _ hm))
            (fun hm => hs' (List.mem_cons_of_mem _ hm)) h
          exact ⟨rfl, rfl⟩

/-- **The naming scheme is injective** for kinds without `:`, over all agent ids, those
containing `:` included: the last `:` of a name ends its id. -/
theorem agentKey_inj {a b k k' : String} (hk : ':' ∉ k.data) (hk' : ':' ∉ k'.data)
    (h : agentKey a k = agentKey b k') : a = b ∧ k = k' := by
  have h₀ : a.data ++ ':' :: k.data = b.data ++ ':' :: k'.data := by
    simpa [agentKey] using congrArg String.data h
  have h' : (k.data.reverse ++ ':' :: a.data.reverse) =
      (k'.data.reverse ++ ':' :: b.data.reverse) := by
    simpa using congrArg List.reverse h₀
  obtain ⟨h1, h2⟩ := colon_split (by simpa using hk) (by simpa using hk') h'
  exact ⟨String.ext (List.reverse_injective h2), String.ext (List.reverse_injective h1)⟩

/-- No kind of the scheme contains `:`. -/
theorem colon_not_mem_kind {k : String} (hk : k ∈ storeKinds ∨ k ∈ commandKinds) :
    ':' ∉ k.data := by
  simp only [storeKinds, commandKinds, List.mem_cons, List.mem_singleton,
    List.not_mem_nil, or_false] at hk
  rcases hk with (rfl | rfl | rfl | rfl) | (rfl | rfl | rfl | rfl) <;> decide

/-- The shared event topic is not a per-agent name. -/
theorem agentKey_ne_agentEvents (a k : String) : agentKey a k ≠ agentEvents := by
  intro h
  have := congrArg (fun s : String => s.data.take 6) h
  simp [agentKey, agentEvents] at this

/-! ### The registration pattern -/

/-- Match a store key against a `KEYS` pattern: `*` any run, `?` any character, every
other character itself. -/
def globMatch : List Char → List Char → Bool
  | [], s => s.isEmpty
  | '*' :: p, s => s.tails.any (globMatch p)
  | '?' :: p, s => match s with
    | [] => false
    | _ :: s => globMatch p s
  | c :: p, s => match s with
    | [] => false
    | c' :: s => c == c' && globMatch p s

/-- The pattern with which `list_agents` enumerates registrations. -/
def registrationPattern : String := "agent:*:registration"

/-- A character that `globMatch` reads as itself. -/
def IsLiteral (c : Char) : Prop := c ≠ '*' ∧ c ≠ '?'

instance : DecidablePred IsLiteral := fun c => inferInstanceAs (Decidable (c ≠ '*' ∧ c ≠ '?'))

theorem globMatch_nil (s : List Char) : globMatch [] s = true ↔ s = [] := by
  simp [globMatch]

theorem globMatch_star (p s : List Char) :
    globMatch ('*' :: p) s = true ↔ ∃ x y, s = x ++ y ∧ globMatch p y = true := by
  simp only [globMatch, List.any_eq_true, List.mem_tails]
  constructor
  · rintro ⟨y, ⟨x, rfl⟩, hy⟩; exact ⟨x, y, rfl, hy⟩
  · rintro ⟨x, y, rfl, hy⟩; exact ⟨y, ⟨x, rfl⟩, hy⟩

theorem globMatch_literal {c : Char} (hc : IsLiteral c) (p s : List Char) :
    globMatch (c :: p) s = true ↔ ∃ s', s = c :: s' ∧ globMatch p s' = true := by
  obtain ⟨h1, h2⟩ := hc
  cases s with
  | nil => simp [globMatch, h1, h2]
  | cons c' s =>
      simp only [globMatch, h1, h2, List.cons.injEq]
      constructor
      · intro h; simp only [Bool.and_eq_true, beq_iff_eq] at h; exact ⟨s, ⟨h.1.symm, rfl⟩, h.2⟩
      · rintro ⟨s', ⟨rfl, rfl⟩, h⟩; simp [h]

/-- A literal prefix of a pattern matches itself. -/
theorem globMatch_literal_append {l : List Char} (hl : ∀ c ∈ l, IsLiteral c) (p s : List Char) :
    globMatch (l ++ p) s = true ↔ ∃ s', s = l ++ s' ∧ globMatch p s' = true := by
  induction l generalizing s with
  | nil => simp
  | cons c l ih =>
      rw [List.cons_append, globMatch_literal (hl c (List.mem_cons_self _ _))]
      simp only [ih fun c hc => hl c (List.mem_cons_of_mem _ hc), List.cons_append]
      constructor
      · rintro ⟨s', rfl, s'', rfl, h⟩; exact ⟨s'', rfl, h⟩
      · rintro ⟨s'', rfl, h⟩; exact ⟨_, rfl, s'', rfl, h⟩

/-- **The registration pattern matches exactly the registration keys**: the names
`agent:{x}:registration`, for every string `x`. -/
theorem globMatch_registrationPattern (s : String) :
    globMatch registrationPattern.data s.data = true ↔ ∃ x, s = agentKey x "registration" := by
  have hpat : registrationPattern.data = "agent:".data ++ '*' :: ":registration".data := rfl
  have hlit₁ : ∀ c ∈ "agent:".data, IsLiteral c := by decide
  have hlit₂ : ∀ c ∈ ":registration".data, IsLiteral c := by decide
  have hend : ∀ y, globMatch ":registration".data y = true ↔ y = ":registration".data := by
    intro y; simpa [globMatch_nil] using globMatch_literal_append hlit₂ [] y
  rw [hpat, globMatch_literal_append hlit₁]
  simp only [globMatch_star, hend]
  constructor
  · rintro ⟨s', hs, x, y, rfl, rfl⟩
    exact ⟨⟨x⟩, String.ext (by simpa [agentKey] using hs)⟩
  · rintro ⟨x, rfl⟩
    exact ⟨x.data ++ ":registration".data, by simp [agentKey], x.data, _, rfl, rfl⟩

/-- **The registration pattern matches no other name of the scheme**: a per-agent name
matches it only when its kind is `registration`. -/
theorem globMatch_registrationPattern_agentKey {b k : String} (hk : ':' ∉ k.data) :
    globMatch registrationPattern.data (agentKey b k).data = true ↔ k = "registration" := by
  rw [globMatch_registrationPattern]
  constructor
  · rintro ⟨x, hx⟩; exact (agentKey_inj hk (by decide) hx).2
  · rintro rfl; exact ⟨b, rfl⟩

end AgentControl

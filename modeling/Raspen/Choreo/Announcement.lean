import Raspen.Choreo.Open

/-!
# One announcement for each slot

A process announces values in slots.  When it announces in a slot only while its state has
not passed it, has passed it afterwards, and never falls back behind a slot, then every
slot of a process holds at most one value, in all mailboxes together.
-/

namespace Raspen.Choreo

variable {process state message event custom extensions slot value : Type}

/-- Some mailbox holds an announcement of `value` in `slot` by `v`. -/
def Announced (announcement : message → Option (process × slot × value))
    (env : GlobalContext process state message event extensions) (v : process) (turn : slot)
    (said : value) : Prop :=
  ∃ node, ∃ msg ∈ env.messages node, announcement msg = some (v, turn, said)

/-- Announced slots are passed, and each of them holds one value. -/
structure OneVoice (announcement : message → Option (process × slot × value))
    (passed : state → slot → Prop)
    (env : GlobalContext process state message event extensions) : Prop where
  passed : ∀ v turn said, Announced announcement env v turn said → passed (env.system v) turn
  unique : ∀ v turn said said', Announced announcement env v turn said →
    Announced announcement env v turn said' → said = said'

variable {announcement : message → Option (process × slot × value)}
variable {passed : state → slot → Prop}
variable {env : GlobalContext process state message event extensions}

/-- Before anything is announced, everyone has one voice. -/
theorem OneVoice.of_silent
    (silent : ∀ node, ∀ msg ∈ env.messages node, announcement msg = none) :
    OneVoice announcement passed env := by
  have nothing : ∀ v turn said, ¬Announced announcement env v turn said := by
    rintro v turn said ⟨node, msg, msgMem, announces⟩
    rw [silent node msg msgMem] at announces
    contradiction
  exact
    { passed := fun v turn said announced => absurd announced (nothing v turn said)
      unique := fun v turn said _ announced => absurd announced (nothing v turn said) }

/-- What matters are the local states and the announcements. -/
theorem OneVoice.congr {later : GlobalContext process state message event extensions}
    (oneVoice : OneVoice announcement passed env) (system : later.system = env.system)
    (announced : ∀ v turn said, Announced announcement later v turn said →
      Announced announcement env v turn said) : OneVoice announcement passed later where
  passed v turn said now := by
    rw [system]
    exact oneVoice.passed v turn said (announced v turn said now)
  unique v turn said said' now now' :=
    oneVoice.unique v turn said said' (announced v turn said now) (announced v turn said' now')

variable [DecidableEq process] [DecidableEq message] [DecidableEq event]
variable {applyCustomEffect : EffectProcessor process state message event custom extensions}

omit [DecidableEq process] [DecidableEq event] in
/-- A message that announces nothing may appear from outside. -/
theorem OneVoice.inject (oneVoice : OneVoice announcement passed env) {msg : message}
    (silent : announcement msg = none) :
    OneVoice announcement passed
      { env with messages := fun node => insert msg (env.messages node) } := by
  apply OneVoice.congr oneVoice
  · rfl
  · rintro v turn said ⟨node, sent, sentMem, announces⟩
    rcases Finset.mem_insert.mp sentMem with rfl | old
    · rw [silent] at announces
      contradiction
    · exact ⟨node, sent, old, announces⟩

/-- A transition keeps one voice when its announcements are its own, in slots that it passes
with them, one value in each. -/
theorem OneVoice.applyEffect (plain : ∀ env effect, applyCustomEffect env effect = env)
    (oneVoice : OneVoice announcement passed env) {v : process}
    {transition : Transition process state message event custom}
    (mono : ∀ turn, passed (env.system v) turn → passed transition.postState turn)
    (fresh : ∀ effect ∈ transition.effects, ∀ node msg sender turn said,
      effect.Reaches node msg → announcement msg = some (sender, turn, said) →
      sender = v ∧ ¬passed (env.system v) turn ∧ passed transition.postState turn)
    (single : ∀ effect ∈ transition.effects, ∀ effect' ∈ transition.effects,
      ∀ node node' msg msg' turn said said', effect.Reaches node msg → effect'.Reaches node' msg' →
      announcement msg = some (v, turn, said) → announcement msg' = some (v, turn, said') →
      said = said') :
    OneVoice announcement passed (applyEffect applyCustomEffect env v transition) := by
  have system : (Choreo.applyEffect applyCustomEffect env v transition).system =
      Function.update env.system v transition.postState := system_applyEffect plain
  -- an announcement is an old one, or one of the effects
  have source : ∀ sender turn said,
      Announced announcement (Choreo.applyEffect applyCustomEffect env v transition) sender turn
        said →
      Announced announcement env sender turn said ∨
        ∃ effect ∈ transition.effects, ∃ node msg, effect.Reaches node msg ∧
          announcement msg = some (sender, turn, said) := by
    rintro sender turn said ⟨node, msg, msgMem, announces⟩
    rcases (mem_messages_applyEffect_iff plain).mp msgMem with old | ⟨effect, effectMem, reaches⟩
    · exact .inl ⟨node, msg, old, announces⟩
    · exact .inr ⟨effect, effectMem, node, msg, reaches, announces⟩
  constructor
  · intro sender turn said announced
    rw [system]
    rcases source sender turn said announced with old | ⟨effect, effectMem, node, msg, reaches,
      announces⟩
    · have behind := oneVoice.passed sender turn said old
      by_cases same : sender = v
      · subst same
        rw [Function.update_self]
        exact mono turn behind
      · rw [Function.update_of_ne same]
        exact behind
    · obtain ⟨rfl, _, now⟩ := fresh effect effectMem node msg sender turn said reaches announces
      rw [Function.update_self]
      exact now
  · intro sender turn said said' announced announced'
    rcases source sender turn said announced with old | ⟨effect, effectMem, node, msg, reaches,
      announces⟩
    · rcases source sender turn said' announced' with old' | ⟨effect', effectMem', node', msg',
        reaches', announces'⟩
      · exact oneVoice.unique sender turn said said' old old'
      · obtain ⟨rfl, ahead, _⟩ :=
          fresh effect' effectMem' node' msg' sender turn said' reaches' announces'
        exact absurd (oneVoice.passed _ turn said old) ahead
    · obtain ⟨rfl, ahead, _⟩ := fresh effect effectMem node msg sender turn said reaches announces
      rcases source _ turn said' announced' with old' | ⟨effect', effectMem', node', msg',
        reaches', announces'⟩
      · exact absurd (oneVoice.passed _ turn said' old') ahead
      · exact single effect effectMem effect' effectMem' node node' msg msg' turn said said'
          reaches reaches' announces announces'

end Raspen.Choreo

import PackageGraph.Proofs.Policy.Refused

/-!
# Forbidden rules, written otherwise

The same forbidden rules may be written in another order, more than once, or with the targets of one
rule spread over several rules of its source (`ForbiddenRule.Rearranged`). What all of these leave
as it is are the sources of the rules and the targets beside each source (`ForbiddenRule.Agree`),
and the check of the rules reads nothing else off them (`Policy.gatherForbidden_of_agree`). So
rearranged rules make the same policy, or are refused for the same reason
(`Policy.ofRules_rearranged`).
-/

namespace PackageGraph

open Sorted

namespace ForbiddenRule

/-- The second list holds the rules of the first one, written otherwise. -/
inductive Rearranged : List ForbiddenRule → List ForbiddenRule → Prop
  /-- The rules stand in another order. -/
  | reordered {rules rules' : List ForbiddenRule} : rules.Perm rules' → Rearranged rules rules'
  /-- A rule is repeated. -/
  | repeated {rule : ForbiddenRule} {rules : List ForbiddenRule} :
      rule ∈ rules → Rearranged rules (rule :: rules)
  /-- The targets of a rule are spread over several rules with its source. -/
  | spread {source : String} {targets : List String} {parts : List (List String)}
      {rules : List ForbiddenRule} : parts ≠ [] →
      (∀ target, target ∈ targets ↔ ∃ part ∈ parts, target ∈ part) →
      Rearranged (⟨source, targets⟩ :: rules) (parts.map (ForbiddenRule.mk source) ++ rules)
  | symm {rules rules' : List ForbiddenRule} : Rearranged rules rules' → Rearranged rules' rules
  | trans {rules rules' rules'' : List ForbiddenRule} :
      Rearranged rules rules' → Rearranged rules' rules'' → Rearranged rules rules''

/-- Both lists of rules have the same sources, and the same targets beside each source. -/
structure Agree (rules rules' : List ForbiddenRule) : Prop where
  /-- A source of one list is a source of the other one. -/
  sources : ∀ source, (∃ rule ∈ rules, rule.source = source) ↔
    ∃ rule ∈ rules', rule.source = source
  /-- So it is with a target beside a source. -/
  targets : ∀ source target, (∃ rule ∈ rules, rule.source = source ∧ target ∈ rule.targets) ↔
    ∃ rule ∈ rules', rule.source = source ∧ target ∈ rule.targets

namespace Agree

variable {rules rules' rules'' : List ForbiddenRule}

theorem symm (h : Agree rules rules') : Agree rules' rules where
  sources source := (h.sources source).symm
  targets source target := (h.targets source target).symm

theorem trans (h : Agree rules rules') (h' : Agree rules' rules'') : Agree rules rules'' where
  sources source := (h.sources source).trans (h'.sources source)
  targets source target := (h.targets source target).trans (h'.targets source target)

/-- Lists with the same rules agree. -/
theorem of_mem_iff (h : ∀ rule, rule ∈ rules ↔ rule ∈ rules') : Agree rules rules' where
  sources source := by simp only [h]
  targets source target := by simp only [h]

/-- A rule agrees with the rules that its targets are spread over, whatever other rules there
are. -/
theorem spread {source : String} {targets : List String} {parts : List (List String)}
    (hparts : parts ≠ []) (htargets : ∀ target, target ∈ targets ↔ ∃ part ∈ parts, target ∈ part) :
    Agree (⟨source, targets⟩ :: rules) (parts.map (ForbiddenRule.mk source) ++ rules) where
  sources := by
    intro other
    -- there is a part, so that the source is not lost
    obtain ⟨part, hpart⟩ := List.exists_mem_of_ne_nil parts hparts
    simp only [List.exists_mem_cons_iff, List.mem_append, List.mem_map, or_and_right, exists_or]
    refine or_congr_left ⟨?_, ?_⟩
    · intro hsource
      exact ⟨_, ⟨part, hpart, rfl⟩, hsource⟩
    · rintro ⟨_, ⟨_, -, rfl⟩, hsource⟩
      exact hsource
  targets := by
    intro other target
    simp only [List.exists_mem_cons_iff, List.mem_append, List.mem_map, or_and_right, exists_or]
    refine or_congr_left ⟨?_, ?_⟩
    · rintro ⟨hsource, htarget⟩
      obtain ⟨part, hpart, htarget⟩ := (htargets target).1 htarget
      exact ⟨_, ⟨part, hpart, rfl⟩, hsource, htarget⟩
    · rintro ⟨_, ⟨part, hpart, rfl⟩, hsource, htarget⟩
      exact ⟨hsource, (htargets target).2 ⟨part, hpart, htarget⟩⟩

/-- Whatever can be said of some source can be said of some source on the other side. -/
theorem exists_source_iff (h : Agree rules rules') (p : String → Prop) :
    (∃ rule ∈ rules, p rule.source) ↔ ∃ rule ∈ rules', p rule.source := by
  constructor
  · rintro ⟨rule, hrule, hp⟩
    obtain ⟨rule', hrule', hsource⟩ := (h.sources rule.source).1 ⟨rule, hrule, rfl⟩
    exact ⟨rule', hrule', hsource ▸ hp⟩
  · rintro ⟨rule, hrule, hp⟩
    obtain ⟨rule', hrule', hsource⟩ := (h.sources rule.source).2 ⟨rule, hrule, rfl⟩
    exact ⟨rule', hrule', hsource ▸ hp⟩

/-- Rules that agree name the same pairs. -/
theorem exists_names_iff (h : Agree rules rules') {source target : String} :
    (∃ rule ∈ rules, rule.Names source target) ↔ ∃ rule ∈ rules', rule.Names source target := by
  -- one direction is enough, as agreement is symmetric
  have hforth {rules rules' : List ForbiddenRule} (h : Agree rules rules') :
      (∃ rule ∈ rules, rule.Names source target) → ∃ rule ∈ rules', rule.Names source target := by
    rintro ⟨rule, hrule, hsource, htarget, hne⟩
    obtain ⟨written, hwritten, rfl⟩ := List.mem_map.1 htarget
    obtain ⟨rule', hrule', hsource', hwritten'⟩ :=
      (h.targets rule.source written).1 ⟨rule, hrule, rfl, hwritten⟩
    exact ⟨rule', hrule', hsource'.symm ▸ hsource, List.mem_map_of_mem hwritten', hne⟩
  exact ⟨hforth h, hforth h.symm⟩

end Agree

/-- **Rearranged rules agree.** -/
theorem Rearranged.agree {rules rules' : List ForbiddenRule} (h : Rearranged rules rules') :
    Agree rules rules' := by
  induction h with
  | reordered hperm => exact .of_mem_iff fun rule => hperm.mem_iff
  | repeated hmem =>
    refine .of_mem_iff fun rule => ?_
    rw [List.mem_cons]
    exact (or_iff_right_of_imp fun heq => heq ▸ hmem).symm
  | spread hparts htargets => exact .spread hparts htargets
  | symm _ ih => exact ih.symm
  | trans _ _ ih ih' => exact ih.trans ih'

end ForbiddenRule

namespace Policy

/-- **The check of forbidden rules reads sources and targets off them, and nothing else.** -/
theorem gatherForbidden_of_agree {rules rules' : List ForbiddenRule}
    (h : ForbiddenRule.Agree rules rules') : gatherForbidden rules' = gatherForbidden rules := by
  have hblank := h.exists_source_iff fun source => trimmed source = ""
  cases hrules : gatherForbidden rules with
  | error error =>
    rw [gatherForbidden_eq_error, hblank] at hrules
    exact gatherForbidden_eq_error.2 hrules
  | ok table =>
    -- no source is blank, so the other rules give a table as well
    have hnoError : ∀ error, gatherForbidden rules' ≠ .error error := by
      intro error herror
      rw [gatherForbidden_eq_error, ← hblank] at herror
      cases hrules.symm.trans (gatherForbidden_eq_error.2 herror)
    obtain ⟨table', hrules'⟩ := exists_ok_of_forall_ne_error hnoError
    rw [hrules']
    refine congrArg _ (Map.ext_members (fun source => ?_) fun source target => ?_)
    · -- both tables have the sources of their rules
      rw [contains_gatherForbidden hrules', contains_gatherForbidden hrules]
      exact (h.exists_source_iff fun written => trimmed written = source).symm
    · -- and the pairs that their rules name
      change Holds table' source target ↔ Holds table source target
      rw [holds_gatherForbidden hrules', holds_gatherForbidden hrules]
      exact h.exists_names_iff.symm

/-- **Rearranged rules give the same policy**, or are refused for the same reason. -/
theorem ofRules_rearranged {rules : PolicyRules} {forbidden : List ForbiddenRule}
    {moduleRoot project : String} {disk : Disk}
    (h : ForbiddenRule.Rearranged rules.forbidden forbidden) :
    ofRules { rules with forbidden } moduleRoot disk project =
      ofRules rules moduleRoot disk project := by
  rw [ofRules, ofRules, gatherForbidden_of_agree h.agree]

end Policy

end PackageGraph

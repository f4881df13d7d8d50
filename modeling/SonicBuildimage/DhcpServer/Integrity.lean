/-
  What every sequence of `config dhcp_server ipv4` commands keeps: the names in the lists of ports
  and interfaces exist, a port has one list (`intact_of_run`), and a bound range lies inside its
  VLAN (`inside_of_run`).

  Both fail for some arguments.  `range add` and `option add` take the empty name, which the schema
  of the tables refuses, and `bind --range ,` then writes an empty list, as does `option bind` with
  the empty name, which `option del` takes for no list.  `range update` does not look at the ports
  the range is bound to, as `bind` and `range del` do; nor does `range add`, for a name that
  `range del --force` left behind.
-/
import SonicBuildimage.DhcpServer.Cli
import SonicBuildimage.Lib.Run

namespace SonicBuildimage.DhcpServer

open SonicBuildimage.Lib

def Step (env : Env) (db : Db) (c : Command) (db' : Db) : Prop := (exec env db c).1 = db'

theorem step_next (env : Env) (db : Db) (c : Command) (db' : Db)
    (h : some (exec env db c).1 = some db') : Step env db c db' :=
  Option.some.inj h

/-! ## References and lists -/

/-- The row of a port has one of the two lists, with elements and without duplicates. -/
def OneList (row : Row) : Prop :=
  ∃ field other text, (field = "ips@" ∧ other = "ranges@" ∨ field = "ranges@" ∧ other = "ips@") ∧
    Dict.get? row field = some text ∧ Dict.get? row other = none ∧
    text ≠ "" ∧ (split ',' text).Nodup

/-- The names in a list, an empty text being the list of the empty name. -/
structure Intact (db : Db) : Prop where
  ranges : ∀ k text, getField db (.port, k) "ranges@" = some text →
    ∀ r ∈ split ',' text, (Dict.get? db (.range, r)).isSome
  options : ∀ vlan text, getField db (.server, vlan) "customized_options@" = some text →
    ∀ o ∈ split ',' text, (Dict.get? db (.customizedOptions, o)).isSome
  ports : ∀ k row, Dict.get? db (.port, k) = some row → OneList row

/-- No list of options is empty, and its names exist. -/
structure OptionsKept (db : Db) : Prop where
  unnamed : Dict.get? db (.customizedOptions, "") = none
  lists : ∀ vlan text, getField db (.server, vlan) "customized_options@" = some text →
    text ≠ "" ∧ ∀ o ∈ split ',' text, (Dict.get? db (.customizedOptions, o)).isSome

/-- The inductive form: an empty list would have to name the empty text. -/
structure Kept (db : Db) : Prop where
  ranges : ∀ k r, r ∈ names (getField db (.port, k) "ranges@") →
    (Dict.get? db (.range, r)).isSome
  options : OptionsKept db
  ports : ∀ k row, Dict.get? db (.port, k) = some row → OneList row
  unnamed : Dict.get? db (.range, "") = none
  ips : ∀ k, "" ∉ names (getField db (.port, k) "ips@")

/-- `--force` is not used. -/
def Command.Checked : Command → Bool
  | .rangeDel _ force => !force
  | _ => true

/-- The name of a new range or option is not empty. -/
def Command.Named : Command → Bool
  | .rangeAdd name _ _ => name ≠ ""
  | .optionAdd name _ _ _ => name ≠ ""
  | _ => true

theorem OneList.other {row : Row} (h : OneList row) {field other : String}
    (hfield : field = "ips@" ∧ other = "ranges@" ∨ field = "ranges@" ∧ other = "ips@")
    (hne : names (Dict.get? row field) ≠ []) : Dict.get? row other = none := by
  obtain ⟨field', other', text, hfield', hget, hnone, -, -⟩ := h
  rcases hfield with ⟨rfl, rfl⟩ | ⟨rfl, rfl⟩ <;> rcases hfield' with ⟨rfl, rfl⟩ | ⟨rfl, rfl⟩
  · exact hnone
  · exact absurd (by rw [hnone]; rfl) hne
  · exact absurd (by rw [hnone]; rfl) hne
  · exact hnone

theorem join_ne_empty {xs : List String} (hne : xs ≠ []) (hcomma : ∀ x ∈ xs, ',' ∉ x.toList)
    (hempty : "" ∉ xs) : join "," xs ≠ "" := by
  intro h
  have hxs : split ',' (join "," xs) = xs := split_join hne hcomma
  rw [h, show split ',' "" = [""] by decide] at hxs
  rw [← hxs] at hempty
  exact hempty (List.mem_singleton_self _)

theorem range_of_rangeFits {env : Env} {db : Db} {nets : List (Nat × Nat)} {r : String}
    (h : rangeFits env db nets r = true) : (Dict.get? db (.range, r)).isSome := by
  unfold rangeFits getField at h
  cases hrow : Dict.get? db (.range, r) with
  | none => rw [hrow] at h; exact absurd h (by simp [endsFit])
  | some row => rfl

section Kept

variable {env : Env} {db db' : Db}

/-- A text that is not empty is split as it stands. -/
theorem names_some {text : String} (h : text ≠ "") : names (some text) = split ',' text := if_neg h

theorem Kept.intact (h : Kept db) : Intact db := by
  refine ⟨fun k text htext r hr => ?_, fun vlan text htext => (h.options.lists vlan text htext).2,
    h.ports⟩
  obtain ⟨row, hrow, hfield⟩ := Option.bind_eq_some_iff.1 htext
  obtain ⟨field, other, text', hcases, hget, hnone, hne, -⟩ := h.ports k row hrow
  rcases hcases with ⟨rfl, rfl⟩ | ⟨rfl, rfl⟩
  · rw [hnone] at hfield
    cases hfield
  · rw [hget] at hfield
    obtain rfl := Option.some.inj hfield
    refine h.ranges k r ?_
    rw [htext, names_some hne]
    exact hr

/-- A command that leaves the options and their lists alone. -/
theorem OptionsKept.frame (h : OptionsKept db)
    (hserver : ∀ k, Dict.get? db' (.server, k) = Dict.get? db (.server, k))
    (hoption : ∀ k, Dict.get? db' (.customizedOptions, k) = Dict.get? db (.customizedOptions, k)) :
    OptionsKept db' := by
  refine ⟨(hoption "").trans h.unnamed, fun vlan text htext => ?_⟩
  unfold getField at htext
  rw [hserver] at htext
  simp only [hoption]
  exact h.lists vlan text htext

/-- A command that writes the row of one interface. -/
theorem OptionsKept.server (h : OptionsKept db) (vlan : String)
    (hserver : ∀ k, vlan ≠ k → Dict.get? db' (.server, k) = Dict.get? db (.server, k))
    (hoption : ∀ k, Dict.get? db' (.customizedOptions, k) = Dict.get? db (.customizedOptions, k))
    (hlist : ∀ text, getField db' (.server, vlan) "customized_options@" = some text →
      getField db (.server, vlan) "customized_options@" = some text ∨
        ∃ options, options ≠ [] ∧ (∀ o ∈ options, ',' ∉ o.toList) ∧ text = join "," options ∧
          ∀ o ∈ options, o ∈ names (getField db (.server, vlan) "customized_options@") ∨
            (Dict.get? db (.customizedOptions, o)).isSome) : OptionsKept db' := by
  refine ⟨(hoption "").trans h.unnamed, fun vlan' text htext => ?_⟩
  simp only [hoption]
  by_cases hvlan : vlan = vlan'
  · subst hvlan
    rcases hlist text htext with hold | ⟨options, hne, hcomma, rfl, hoptions⟩
    · exact h.lists vlan text hold
    · -- an option of the list before exists, and so is not the empty one
      have hall : ∀ o ∈ options, (Dict.get? db (.customizedOptions, o)).isSome := by
        intro o ho
        rcases hoptions o ho with hold | hsome
        · cases hfield : getField db (.server, vlan) "customized_options@" with
          | none =>
            rw [hfield] at hold
            exact absurd hold List.not_mem_nil
          | some text =>
            obtain ⟨hne, hall⟩ := h.lists vlan text hfield
            rw [hfield, names_some hne] at hold
            exact hall o hold
        · exact hsome
      have hempty : "" ∉ options := by
        intro hmem
        have hsome := hall "" hmem
        rw [h.unnamed] at hsome
        exact absurd hsome (by simp)
      have hsplit : split ',' (join "," options) = options := split_join hne hcomma
      rw [hsplit]
      exact ⟨join_ne_empty hne hcomma hempty, hall⟩
  · unfold getField at htext
    rw [hserver vlan' hvlan] at htext
    exact h.lists vlan' text htext

/-- A command that leaves the ports alone. -/
theorem Kept.of_ports (h : Kept db)
    (hport : ∀ k, Dict.get? db' (.port, k) = Dict.get? db (.port, k))
    (hrange : ∀ k r, r ∈ names (getField db (.port, k) "ranges@") →
      (Dict.get? db' (.range, r)).isSome)
    (hunnamed : Dict.get? db' (.range, "") = none) (hoption : OptionsKept db') : Kept db' := by
  have hfield : ∀ k f, getField db' (.port, k) f = getField db (.port, k) f := by
    intro k f
    unfold getField
    rw [hport]
  refine ⟨?_, hoption, ?_, hunnamed, ?_⟩
  · intro k r hr
    exact hrange k r (hfield k _ ▸ hr)
  · intro k row hrow
    exact h.ports k row (hport k ▸ hrow)
  · intro k
    rw [hfield]
    exact h.ips k

/-- A command that leaves the ports and the ranges alone. -/
theorem Kept.of_ranges (h : Kept db)
    (hport : ∀ k, Dict.get? db' (.port, k) = Dict.get? db (.port, k))
    (hrange : ∀ r, Dict.get? db' (.range, r) = Dict.get? db (.range, r))
    (hoption : OptionsKept db') : Kept db' := by
  refine h.of_ports hport ?_ ?_ hoption
  · intro k r hr
    rw [hrange]
    exact h.ranges k r hr
  · rw [hrange]
    exact h.unnamed

/-- A command that writes the row of one port. -/
theorem Kept.of_port (h : Kept db) (k : String)
    (hframe : ∀ key, (Table.port, k) ≠ key → Dict.get? db' key = Dict.get? db key)
    (hrow : ∀ row, Dict.get? db' (.port, k) = some row → OneList row ∧
      (∀ r ∈ names (Dict.get? row "ranges@"), (Dict.get? db (.range, r)).isSome) ∧
      "" ∉ names (Dict.get? row "ips@")) : Kept db' := by
  have hfield : ∀ key, (Table.port, k) ≠ key → ∀ f, getField db' key f = getField db key f := by
    intro key hne f
    unfold getField
    rw [hframe key hne]
  refine ⟨?_, h.options.frame (fun _ => hframe _ (by simp)) (fun _ => hframe _ (by simp)), ?_, ?_,
    ?_⟩
  · intro k' r hr
    rw [hframe _ (by simp)]
    by_cases hk : k = k'
    · subst hk
      unfold getField at hr
      cases hget : Dict.get? db' (.port, k) with
      | none => rw [hget] at hr; exact absurd hr List.not_mem_nil
      | some row => rw [hget] at hr; exact (hrow row hget).2.1 r hr
    · rw [hfield _ (by simp [hk])] at hr
      exact h.ranges k' r hr
  · intro k' row hget
    by_cases hk : k = k'
    · subst hk
      exact (hrow row hget).1
    · rw [hframe _ (by simp [hk])] at hget
      exact h.ports k' row hget
  · rw [hframe _ (by simp)]
    exact h.unnamed
  · intro k'
    by_cases hk : k = k'
    · subst hk
      unfold getField
      cases hget : Dict.get? db' (.port, k) with
      | none => exact List.not_mem_nil
      | some row => exact (hrow row hget).2.2
    · rw [hfield _ (by simp [hk])]
      exact h.ips k'

/-- The lists of a port before `bind` and `unbind`. -/
theorem names_old {k field : String} {old : Row}
    (hold : (Dict.get? db (.port, k) = none ∧ old = []) ∨
      (Dict.get? db (.port, k) = some old ∧ names (Dict.get? old field) ≠ [])) (f : String) :
    names (Dict.get? old f) = names (getField db (.port, k) f) := by
  unfold getField
  rcases hold with ⟨hnone, rfl⟩ | ⟨hsome, -⟩
  · rw [hnone]
    rfl
  · rw [hsome]
    rfl

/-- The row that `bind` and `unbind` write. -/
theorem Kept.port (h : Kept db) {k field : String} {old : Row} {members : List String}
    (hfield : field = "ips@" ∨ field = "ranges@")
    (hold : (Dict.get? db (.port, k) = none ∧ old = []) ∨
      (Dict.get? db (.port, k) = some old ∧ names (Dict.get? old field) ≠ []))
    (hne : members ≠ []) (hnodup : members.Nodup) (hcomma : ∀ x ∈ members, ',' ∉ x.toList)
    (hmem : ∀ x ∈ members, x ∈ names (Dict.get? old field) ∨ Fits env db k field x) :
    Kept (Dict.set db (.port, k) (Dict.set old field (join "," members))) := by
  have hget := names_old hold
  have hother : ∀ other, (field = "ips@" ∧ other = "ranges@" ∨ field = "ranges@" ∧ other = "ips@") →
      Dict.get? old other = none := by
    intro other hother
    rcases hold with ⟨-, rfl⟩ | ⟨hsome, hold⟩
    · rfl
    · exact (h.ports k old hsome).other hother hold
  have hrange : field = "ranges@" → ∀ r ∈ members, (Dict.get? db (.range, r)).isSome := by
    rintro rfl r hr
    rcases hmem r hr with hr | hr
    · exact h.ranges k r (hget _ ▸ hr)
    · rcases hr with ⟨hf, -⟩ | ⟨-, _, _, _, -, -, -, hfits⟩
      · exact absurd hf (by decide)
      · exact range_of_rangeFits hfits
  have hempty : "" ∉ members := by
    intro hx
    rcases hfield with rfl | rfl
    · rcases hmem _ hx with hx | hx
      · exact h.ips k (hget _ ▸ hx)
      · rcases hx with ⟨-, hip⟩ | ⟨hf, -⟩
        · rw [env.ipv4_empty] at hip
          exact absurd hip (by simp)
        · exact absurd hf (by decide)
    · have hsome := hrange rfl _ hx
      rw [h.unnamed] at hsome
      exact absurd hsome (by simp)
  have htext := join_ne_empty hne hcomma hempty
  have hnames := names_join hcomma htext
  have hsplit : split ',' (join "," members) = members := split_join hne hcomma
  refine h.of_port k (fun key hkey => Dict.get?_set_ne _ _ hkey) ?_
  intro row hrow
  rw [Dict.get?_set_self] at hrow
  rw [← Option.some.inj hrow]
  rcases hfield with rfl | rfl
  · have hnone := hother "ranges@" (Or.inl ⟨rfl, rfl⟩)
    rw [← Dict.get?_set_ne old (join "," members) (show "ips@" ≠ "ranges@" by decide)] at hnone
    refine ⟨⟨_, _, _, Or.inl ⟨rfl, rfl⟩, Dict.get?_set_self .., hnone, htext, ?_⟩, ?_, ?_⟩
    · rw [hsplit]
      exact hnodup
    · rw [hnone]
      exact fun r hr => absurd hr List.not_mem_nil
    · rw [Dict.get?_set_self, hnames]
      exact hempty
  · have hnone := hother "ips@" (Or.inr ⟨rfl, rfl⟩)
    rw [← Dict.get?_set_ne old (join "," members) (show "ranges@" ≠ "ips@" by decide)] at hnone
    refine ⟨⟨_, _, _, Or.inr ⟨rfl, rfl⟩, Dict.get?_set_self .., hnone, htext, ?_⟩, ?_, ?_⟩
    · rw [hsplit]
      exact hnodup
    · rw [Dict.get?_set_self, hnames]
      exact hrange rfl
    · rw [hnone]
      exact List.not_mem_nil

theorem Kept.change {c : Command} (h : Kept db) (hchecked : c.Checked = true)
    (hnamed : c.Named = true) (hc : Change env db c db') : Kept db' := by
  cases hc with
  | same => exact h
  | server _ vlan row hoptions =>
    refine h.of_ranges (fun k => Dict.get?_set_ne _ _ (by simp))
      (fun r => Dict.get?_set_ne _ _ (by simp)) ?_
    refine h.options.server vlan (fun k hk => Dict.get?_set_ne _ _ (by simp [hk]))
      (fun o => Dict.get?_set_ne _ _ (by simp)) fun text htext => hoptions text ?_
    rwa [getField_set, if_pos rfl] at htext
  | serverErase _ vlan =>
    refine h.of_ranges (fun k => Dict.get?_erase_ne _ (by simp))
      (fun r => Dict.get?_erase_ne _ (by simp)) ?_
    refine h.options.server vlan (fun k hk => Dict.get?_erase_ne _ (by simp [hk]))
      (fun o => Dict.get?_erase_ne _ (by simp)) fun text htext => ?_
    rw [getField_erase, if_pos rfl] at htext
    exact absurd htext nofun
  | range _ name text row hrow hcommand =>
    refine h.of_ports (fun k => Dict.get?_set_ne _ _ (by simp)) ?_ ?_ ?_
    · intro k r hr
      rw [Dict.get?_set]
      split_ifs
      · rfl
      · exact h.ranges k r hr
    · have hname : name ≠ "" := by
        obtain ⟨ipStart, ipEnd, -, hcommand⟩ := hcommand
        rcases hcommand with rfl | ⟨-, hsome⟩
        · exact of_decide_eq_true hnamed
        · rintro rfl
          rw [h.unnamed] at hsome
          exact absurd hsome (by simp)
      rw [Dict.get?_set_ne _ _ (by simp [hname])]
      exact h.unnamed
    · exact h.options.frame (fun k => Dict.get?_set_ne _ _ (by simp))
        fun k => Dict.get?_set_ne _ _ (by simp)
  | rangeErase name force hfree =>
    refine h.of_ports (fun k => Dict.get?_erase_ne _ (by simp)) ?_ ?_ ?_
    · intro k r hr
      have hne : name ≠ r := by
        rintro rfl
        exact hfree (by simpa [Command.Checked] using hchecked) k hr
      rw [Dict.get?_erase_ne _ (by simp [hne])]
      exact h.ranges k r hr
    · rw [Dict.get?_erase]
      split_ifs
      · rfl
      · exact h.unnamed
    · exact h.options.frame (fun k => Dict.get?_erase_ne _ (by simp))
        fun k => Dict.get?_erase_ne _ (by simp)
  | port _ k field old members hfield hold hne hnodup hcomma hmem =>
    exact h.port hfield hold hne hnodup hcomma hmem
  | portErase _ k =>
    refine h.of_port k (fun key hkey => Dict.get?_erase_ne _ hkey) ?_
    intro row hrow
    rw [Dict.get?_erase_self] at hrow
    exact absurd hrow (by simp)
  | option name id type value row =>
    have hname : name ≠ "" := of_decide_eq_true hnamed
    refine h.of_ranges (fun k => Dict.get?_set_ne _ _ (by simp))
      (fun r => Dict.get?_set_ne _ _ (by simp)) ⟨?_, fun vlan text htext => ?_⟩
    · rw [Dict.get?_set_ne _ _ (by simp [hname])]
      exact h.options.unnamed
    · rw [getField_set, if_neg (by simp)] at htext
      refine (h.options.lists vlan text htext).imp_right fun hall o ho => ?_
      rw [Dict.get?_set]
      split_ifs
      · rfl
      · exact hall o ho
  | optionErase _ name hfree =>
    refine h.of_ranges (fun k => Dict.get?_erase_ne _ (by simp))
      (fun r => Dict.get?_erase_ne _ (by simp)) ⟨?_, fun vlan text htext => ?_⟩
    · rw [Dict.get?_erase]
      split_ifs
      · rfl
      · exact h.options.unnamed
    · rw [getField_erase, if_neg (by simp)] at htext
      obtain ⟨hne, hall⟩ := h.options.lists vlan text htext
      refine ⟨hne, fun o ho => ?_⟩
      have hother : name ≠ o := by
        rintro rfl
        refine hfree vlan ?_
        rw [htext, names_some hne]
        exact ho
      rw [Dict.get?_erase_ne _ (by simp [hother])]
      exact hall o ho

end Kept

/-- No row of the DHCP server. -/
def Unconfigured (db : Db) : Prop :=
  ∀ table ∈ [Table.server, .port, .range, .customizedOptions], ∀ k, Dict.get? db (table, k) = none

theorem Kept.unconfigured {db : Db} (h : Unconfigured db) : Kept db := by
  have hfield : ∀ table ∈ [Table.server, .port, .range, .customizedOptions], ∀ k f,
      getField db (table, k) f = none := by
    intro table ht k f
    unfold getField
    rw [h table ht k]
    rfl
  refine ⟨?_, ⟨h _ (by decide) _, ?_⟩, ?_, h _ (by decide) _, ?_⟩
  · intro k r hr
    rw [hfield _ (by decide)] at hr
    exact absurd hr List.not_mem_nil
  · intro vlan text htext
    rw [hfield _ (by decide)] at htext
    exact absurd htext nofun
  · intro k row hrow
    rw [h _ (by decide)] at hrow
    exact absurd hrow (by simp)
  · intro k
    rw [hfield _ (by decide)]
    exact List.not_mem_nil

/-- Without `--force`, and with names for the new ranges and options. -/
theorem intact_of_run {env : Env} {db db' : Db} {cs : List Command} (h0 : Unconfigured db)
    (hrun : Run (Step env) (fun _ c => c.Checked = true ∧ c.Named = true) db cs db') :
    Intact db' := by
  have hkept : Kept db' := by
    refine hrun.invariant ?_ (Kept.unconfigured h0)
    rintro s c _ h ⟨hchecked, hnamed⟩ rfl
    exact h.change hchecked hnamed (exec_change env s c)
  exact hkept.intact

theorem unconfigured_sampleDb : Unconfigured sampleDb := by
  intro table ht k
  have hne : ∀ e ∈ sampleDb, e.1 ≠ (table, k) := by
    intro e he heq
    have htable : table ∉ sampleDb.map fun e => e.1.1 := by
      fin_cases ht <;> decide
    exact htable (List.mem_map.2 ⟨e, he, congrArg Prod.fst heq⟩)
  by_contra hsome
  obtain ⟨e, he, hkey⟩ := List.mem_map.1 ((Dict.mem_keys_iff _ _).2 hsome)
  exact hne e he hkey

/-- The range named `a` is bound, and cannot be deleted. -/
theorem bound_range_kept : ∃ db', Intact db' ∧
    Dict.get? db' (.port, "Vlan10|Ethernet0") = some [("ranges@", "a")] ∧
    (Dict.get? db' (.range, "a")).isSome := by
  obtain ⟨db', hrun, hport⟩ : ∃ db', Run (Step sampleEnv)
      (fun _ c => c.Checked = true ∧ c.Named = true) sampleDb
      [.rangeAdd "a" "192.168.0.2" none, .bind "Vlan10" "Ethernet0" (some "a") none,
        .rangeDel "a" false] db' ∧
      Dict.get? db' (.port, "Vlan10|Ethernet0") = some [("ranges@", "a")] ∧
      (Dict.get? db' (.range, "a")).isSome :=
    exists_run (step_next sampleEnv) (by decide +kernel)
  exact ⟨db', intact_of_run unconfigured_sampleDb hrun, hport⟩

/-- `range add ""`, `bind --range ,`: a port with an empty list. -/
theorem empty_list_bound : Unconfigured sampleDb ∧ ∃ db', Run (Step sampleEnv)
    (fun _ c => c.Checked = true) sampleDb
    [.rangeAdd "" "192.168.0.2" none, .bind "Vlan10" "Ethernet0" (some ",") none] db' ∧
    ¬Intact db' := by
  obtain ⟨db', hrun, hport⟩ : ∃ db', Run (Step sampleEnv)
      (fun _ c => c.Checked = true) sampleDb
      [.rangeAdd "" "192.168.0.2" none, .bind "Vlan10" "Ethernet0" (some ",") none] db' ∧
      Dict.get? db' (.port, "Vlan10|Ethernet0") = some [("ranges@", "")] :=
    exists_run (step_next sampleEnv) (by decide +kernel)
  refine ⟨unconfigured_sampleDb, db', hrun, fun h => ?_⟩
  obtain ⟨field, other, text, hfield, hget, hnone, htext, -⟩ := h.ports _ _ hport
  rcases hfield with ⟨rfl, rfl⟩ | ⟨rfl, rfl⟩
  · exact absurd hnone (by decide)
  · exact htext (Option.some.inj hget).symm

/-! ## Bound ranges -/

/-- The VLAN of the key of a port, `<vlan>|<member>`. -/
def vlanOf (k : String) : Option String :=
  match split '|' k with
  | [vlan, _] => some vlan
  | _ => none

/-- Every existing range bound to a port of a VLAN lies inside one IPv4 network of the VLAN. -/
def Inside (env : Env) (db : Db) : Prop :=
  ∀ k vlan r, vlanOf k = some vlan → r ∈ names (getField db (.port, k) "ranges@") →
    (Dict.get? db (.range, r)).isSome → ∃ nets ends, subnets env db vlan = some nets ∧
      (getField db (.range, r) "range@").bind (rangeEnds env) = some ends ∧
      ∃ net ∈ nets, ∀ a, ends.1 ≤ a → a ≤ ends.2 → inNet net a = true

/-- The new end points of a range are in one network of each VLAN it is bound to. -/
def Command.Fitting (env : Env) (db : Db) : Command → Bool
  | .rangeAdd name ipStart ipEnd | .rangeUpdate name ipStart ipEnd =>
    (keysWith db .port "").all fun k => name ∉ names (getField db (.port, k) "ranges@") ||
      (vlanOf k).all fun vlan => (rangeText env ipStart ipEnd).all fun text =>
        (subnets env db vlan).any fun nets => endsFit nets (rangeEnds env text)
  | _ => true

theorem vlan_eq_of_vlanOf {vlan member v : String} (h : vlanOf (vlan ++ "|" ++ member) = some v) :
    vlan = v := by
  obtain ⟨vlan', m, hsplit⟩ : ∃ vlan' m, split '|' (vlan ++ "|" ++ member) = [vlan', m] := by
    unfold vlanOf at h
    split at h
    · next vlan' m hsplit => exact ⟨vlan', m, hsplit⟩
    · exact absurd h (by simp)
  rw [vlanOf, hsplit] at h
  rw [← Option.some.inj h]
  have hv : '|' ∉ vlan'.toList := not_mem_of_mem_split (hsplit ▸ List.mem_cons_self)
  have hm : '|' ∉ m.toList :=
    not_mem_of_mem_split (hsplit ▸ List.mem_cons_of_mem _ List.mem_cons_self)
  have hk := join_split '|' (vlan ++ "|" ++ member)
  rw [hsplit] at hk
  have hlist : vlan'.toList ++ '|' :: m.toList = vlan.toList ++ '|' :: member.toList := by
    have hlist := congrArg String.toList hk
    simpa [join] using hlist
  have hcount := congrArg (List.count '|') hlist
  rw [List.count_append, List.count_append, List.count_cons_self, List.count_cons_self,
    List.count_eq_zero_of_not_mem hv, List.count_eq_zero_of_not_mem hm] at hcount
  have hvlan : '|' ∉ vlan.toList := List.count_eq_zero.1 (by omega)
  exact (String.toList_inj.1 (append_cons_inj hv hvlan hlist).1).symm

theorem keysWith_set (db : Db) {key : Key} {table : Table} (row : Row) (start : String)
    (hne : key.1 ≠ table) :
    keysWith (Dict.set db key row) table start = keysWith db table start := by
  have hfilter := Dict.filter_set_of_not (p := fun k : Key => k.1 = table && startswith k.2 start)
    (k := key) (by simp [hne]) db row
  unfold keysWith
  rw [← Dict.keys_filter_key, ← Dict.keys_filter_key, hfilter]

theorem keysWith_erase (db : Db) {key : Key} {table : Table} (start : String)
    (hne : key.1 ≠ table) : keysWith (Dict.erase db key) table start = keysWith db table start := by
  have hfilter := Dict.filter_erase_of_not (p := fun k : Key => k.1 = table && startswith k.2 start)
    (k := key) (by simp [hne]) db
  unfold keysWith
  rw [← Dict.keys_filter_key, ← Dict.keys_filter_key, hfilter]

section Inside

variable {env : Env} {db db' : Db} {c : Command}

/-- The commands do not write VLAN_INTERFACE. -/
theorem Change.subnets (hc : Change env db c db') (vlan : String) :
    subnets env db' vlan = subnets env db vlan := by
  have hkeys : keysWith db' .vlanInterface (vlan ++ "|") =
      keysWith db .vlanInterface (vlan ++ "|") := by
    cases hc with
    | same => rfl
    | server => exact keysWith_set _ _ _ (by simp)
    | serverErase => exact keysWith_erase _ _ (by simp)
    | range => exact keysWith_set _ _ _ (by simp)
    | rangeErase => exact keysWith_erase _ _ (by simp)
    | port => exact keysWith_set _ _ _ (by simp)
    | portErase => exact keysWith_erase _ _ (by simp)
    | option => exact keysWith_set _ _ _ (by simp)
    | optionErase => exact keysWith_erase _ _ (by simp)
  unfold DhcpServer.subnets
  rw [hkeys]

theorem inNet_of_endsFit {nets : List (Nat × Nat)} {ends? : Option (Nat × Nat)}
    (h : endsFit nets ends? = true) : ∃ ends, ends? = some ends ∧
      ∃ net ∈ nets, ∀ a, ends.1 ≤ a → a ≤ ends.2 → inNet net a = true := by
  cases ends? with
  | none => exact absurd h (by simp [endsFit])
  | some ends =>
    obtain ⟨net, hnet, hin⟩ := List.any_eq_true.1 h
    simp only [inNet, Bool.and_eq_true, decide_eq_true_eq] at hin
    refine ⟨ends, rfl, net, hnet, fun a h1 h2 => ?_⟩
    simp only [inNet, Bool.and_eq_true, decide_eq_true_eq]
    omega

/-- Only a new list of a port or new end points matter. -/
theorem Inside.change (h : Inside env db) (hok : c.Fitting env db = true)
    (hc : Change env db c db') : Inside env db' := by
  intro k vlan r hk hr hrow
  rw [hc.subnets]
  cases hc with
  | same => exact h k vlan r hk hr hrow
  | server =>
    rw [getField_set, if_neg (by simp)] at hr ⊢
    rw [Dict.get?_set_ne _ _ (by simp)] at hrow
    exact h k vlan r hk hr hrow
  | serverErase =>
    rw [getField_erase, if_neg (by simp)] at hr ⊢
    rw [Dict.get?_erase_ne _ (by simp)] at hrow
    exact h k vlan r hk hr hrow
  | option =>
    rw [getField_set, if_neg (by simp)] at hr ⊢
    rw [Dict.get?_set_ne _ _ (by simp)] at hrow
    exact h k vlan r hk hr hrow
  | optionErase =>
    rw [getField_erase, if_neg (by simp)] at hr ⊢
    rw [Dict.get?_erase_ne _ (by simp)] at hrow
    exact h k vlan r hk hr hrow
  | rangeErase name force hfree =>
    rw [getField_erase, if_neg (by simp)] at hr
    rw [Dict.get?_erase] at hrow
    split at hrow
    · exact absurd hrow (by simp)
    · next hne =>
      rw [getField_erase, if_neg hne]
      exact h k vlan r hk hr hrow
  | range _ name text row htext hcommand =>
    rw [getField_set, if_neg (by simp)] at hr
    rw [getField_set]
    by_cases hname : name = r
    · subst hname
      rw [if_pos rfl, htext]
      obtain ⟨ipStart, ipEnd, hstored, hcommand⟩ := hcommand
      have hfit : (subnets env db vlan).any (fun nets => endsFit nets (rangeEnds env text)) := by
        have hall : Command.Fitting env db (.rangeAdd name ipStart ipEnd) = true := by
          rcases hcommand with rfl | ⟨rfl, -⟩ <;> exact hok
        have hport := List.all_eq_true.1 hall k (mem_keysWith_of_names hr)
        simpa [hr, hk, hstored] using hport
      cases hnets : subnets env db vlan with
      | none => rw [hnets] at hfit; exact absurd hfit (by simp)
      | some nets =>
        rw [hnets] at hfit
        obtain ⟨ends, hends, hin⟩ := inNet_of_endsFit hfit
        exact ⟨nets, ends, rfl, hends, hin⟩
    · rw [if_neg (by simp [hname])]
      rw [Dict.get?_set_ne _ _ (by simp [hname])] at hrow
      exact h k vlan r hk hr hrow
  | portErase _ k' =>
    rw [getField_erase] at hr
    rw [Dict.get?_erase_ne _ (by simp)] at hrow
    rw [getField_erase, if_neg (by simp)]
    split at hr
    · exact absurd hr List.not_mem_nil
    · exact h k vlan r hk hr hrow
  | port _ k' field old members hfield hold hne hnodup hcomma hmem =>
    rw [Dict.get?_set_ne _ _ (by simp)] at hrow
    rw [getField_set, if_neg (by simp)]
    rw [getField_set] at hr
    by_cases hkey : k' = k
    · subst hkey
      rw [if_pos rfl] at hr
      have hnew : r ∈ names (Dict.get? old "ranges@") ∨ Fits env db k' "ranges@" r := by
        rcases hfield with rfl | rfl
        · rw [Dict.get?_set_ne _ _ (by decide)] at hr
          exact Or.inl hr
        · rw [Dict.get?_set_self] at hr
          exact hmem r (mem_of_mem_names_join hcomma hr)
      rcases hnew with hr | hr
      · exact h k' vlan r hk (names_old hold _ ▸ hr) hrow
      · rcases hr with ⟨hf, -⟩ | ⟨-, vlan', member, nets, rfl, -, hnets, hfits⟩
        · exact absurd hf (by decide)
        · rw [vlan_eq_of_vlanOf hk] at hnets
          obtain ⟨ends, hends, hin⟩ := inNet_of_endsFit hfits
          exact ⟨nets, ends, hnets, hends, hin⟩
    · rw [if_neg (by simp [hkey])] at hr
      exact h k vlan r hk hr hrow

end Inside

/-- When new end points fit the ports the range is bound to. -/
theorem inside_of_run {env : Env} {db db' : Db} {cs : List Command} (h0 : Inside env db)
    (hrun : Run (Step env) (fun db c => c.Fitting env db = true) db cs db') : Inside env db' := by
  refine hrun.invariant ?_ h0
  rintro s c _ h hok rfl
  exact h.change hok (exec_change env s c)

theorem inside_of_unconfigured {env : Env} {db : Db} (h : Unconfigured db) : Inside env db := by
  intro k vlan r _ _ hrow
  rw [h _ (by decide)] at hrow
  exact absurd hrow (by simp)

/-- A bound range is moved within the network. -/
theorem moved_inside : ∃ db', Inside sampleEnv db' ∧
    getField db' (.port, "Vlan10|Ethernet0") "ranges@" = some "a" ∧
    getField db' (.range, "a") "range@" = some "192.168.0.2,192.168.0.9" := by
  obtain ⟨db', hrun, hport⟩ : ∃ db', Run (Step sampleEnv)
      (fun db c => c.Fitting sampleEnv db = true) sampleDb
      [.rangeAdd "a" "192.168.0.2" none, .bind "Vlan10" "Ethernet0" (some "a") none,
        .rangeUpdate "a" "192.168.0.2" (some "192.168.0.9")] db' ∧
      getField db' (.port, "Vlan10|Ethernet0") "ranges@" = some "a" ∧
      getField db' (.range, "a") "range@" = some "192.168.0.2,192.168.0.9" :=
    exists_run (step_next sampleEnv) (by decide +kernel)
  exact ⟨db', inside_of_run (inside_of_unconfigured unconfigured_sampleDb) hrun, hport⟩

/-- `range update` moves a bound range out of the VLAN. -/
theorem moved_outside : Inside sampleEnv sampleDb ∧ ∃ db', Run (Step sampleEnv)
    (fun _ _ => True) sampleDb
    [.rangeAdd "a" "192.168.0.2" none, .bind "Vlan10" "Ethernet0" (some "a") none,
      .rangeUpdate "a" "10.0.0.1" none] db' ∧ ¬Inside sampleEnv db' := by
  obtain ⟨db', hrun, hport, hrange, hends, hnets⟩ : ∃ db', Run (Step sampleEnv)
      (fun _ _ => True) sampleDb
      [.rangeAdd "a" "192.168.0.2" none, .bind "Vlan10" "Ethernet0" (some "a") none,
        .rangeUpdate "a" "10.0.0.1" none] db' ∧
      ("a" ∈ names (getField db' (.port, "Vlan10|Ethernet0") "ranges@") ∧
        (Dict.get? db' (.range, "a")).isSome ∧
        (getField db' (.range, "a") "range@").bind (rangeEnds sampleEnv) = some (1000, 1000) ∧
        subnets sampleEnv db' "Vlan10" = some [(0, 255)]) :=
    exists_run (step_next sampleEnv) (by decide +kernel)
  refine ⟨inside_of_unconfigured unconfigured_sampleDb, db', hrun, fun h => ?_⟩
  obtain ⟨nets, ends, hn, he, net, hnet, hin⟩ :=
    h "Vlan10|Ethernet0" "Vlan10" "a" (by decide) hport hrange
  rw [hnets] at hn
  rw [hends] at he
  obtain rfl := Option.some.inj hn
  obtain rfl := Option.some.inj he
  rw [List.mem_singleton.1 hnet] at hin
  exact absurd (hin 1000 le_rfl le_rfl) (by decide)

end SonicBuildimage.DhcpServer

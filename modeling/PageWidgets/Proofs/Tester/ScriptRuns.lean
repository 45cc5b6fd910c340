import PageWidgets.Proofs.Tester.Evidence
import PageWidgets.Proofs.Tester.Names
import PageWidgets.Tester.Run

/-! Runs of scripts in a browser. Every name is accounted for by an entry of its own, made in the session that the
    entries before it left, and a script that failed leaves evidence that tells what the session still answered and is
    kept as far as the system allows. Which results there are depends on the replies to the scripts' own commands only:
    neither what comes back while evidence is collected nor what becomes of the files has an influence on them. -/

namespace PageWidgets
namespace Tester

namespace Run

/-- What an entry says of a name, with the session that it found and the one that it left: nothing happens for an
    unknown name; a script that came to its end has passed; and after one that failed the session is asked for evidence,
    which is kept in a folder of its own. -/
inductive Accounts (e : Environment) (o : Options) (b : Browser) (name : String) (before : Session) :
    ScriptEntry → Session → Prop
  | unknown {lines : List Line} (hname : Scenario.ofName? name = none) :
    Accounts e o b name before ⟨lines, none, none⟩ before
  | passed {lines : List Line} {sc : Scenario} {after : Session} (hname : Scenario.ofName? name = some sc)
    (hrun : (sc.script o.baseUrl).runIn { before with notes := [] } = (.ok (), after)) :
    Accounts e o b name before ⟨lines, some ⟨sc.name, b.label, true, [], e.spent name⟩, none⟩ after
  | failed {lines : List Line} {sc : Scenario} {f : Failure} {broken after : Session} {evidence : Evidence}
    {written : List (String × List UInt8)} (hname : Scenario.ofName? name = some sc)
    (hrun : (sc.script o.baseUrl).runIn { before with notes := [] } = (.error f, broken))
    (hsent : broken.Follows after Evidence.commands) (htells : Evidence.Tells f broken evidence)
    (hkept : evidence.Kept e.writable (Evidence.folder o.artifactsDir b.label name e.now) written) :
    Accounts e o b name before
      ⟨lines, some ⟨sc.name, b.label, false, [f.text], e.spent name⟩,
        some ⟨Evidence.folder o.artifactsDir b.label name e.now, b.label, name, evidence, written⟩⟩ after

/-- The script that a name asks for fails, and leaves the session so. -/
def Breaks (o : Options) (name : String) (before : Session) (f : Failure) (broken : Session) : Prop :=
  ∃ sc, Scenario.ofName? name = some sc ∧
    (sc.script o.baseUrl).runIn { before with notes := [] } = (.error f, broken)

/-- The reply of that number is one to a command that collects evidence. -/
def ForEvidence (e : Environment) (o : Options) (b : Browser) (names : List String) (s : Session) (i : Nat) : Prop :=
  ∃ before name after f broken, names = before ++ name :: after ∧
    Breaks o name (scriptEntries e o b before s).2 f broken ∧
    broken.sent.length ≤ s.sent.length + i ∧ s.sent.length + i < broken.sent.length + Evidence.commands.length

variable {e : Environment} {o : Options} {b : Browser} {name : String} {names : List String} {sc : Scenario}
  {f : Failure} {s t broken : Session} {d : Doing (Except Failure Unit)}

/-! ### Entries -/

/-- Collecting evidence after a script that failed sends its commands, and the evidence tells what came back. -/
theorem run_collect (f : Failure) (broken : Session) :
    Evidence.Tells f broken ((Evidence.collect f).run broken).1 ∧
      broken.Follows ((Evidence.collect f).run broken).2 Evidence.commands := by
  obtain ⟨evidence, htells, hdoes⟩ := Evidence.does_collect f broken
  rw [hdoes.run]
  exact ⟨htells, rfl, rfl⟩

theorem scriptEntry_accounts (name : String) (s : Session) :
    Accounts e o b name s (scriptEntry e o b name s).1 (scriptEntry e o b name s).2 := by
  cases hname : Scenario.ofName? name with
  | none =>
    simp only [scriptEntry, hname]
    exact .unknown hname
  | some sc =>
    cases hrun : (sc.script o.baseUrl).runIn { s with notes := [] } with
    | mk outcome after =>
      simp only [scriptEntry, hname, play, hrun]
      cases outcome with
      | ok => exact .passed hname hrun
      | error f =>
        obtain ⟨htells, hsent⟩ := run_collect f after
        exact .failed hname hrun hsent htells (Evidence.kept_written _ _ _)

theorem Accounts.result_eq {entry : ScriptEntry} {after : Session} (h : Accounts e o b name s entry after) :
    entry.result.map (fun r => (r.scenario, r.target)) =
      (Scenario.ofName? name).map fun sc => (sc.name, b.label) := by
  cases h with
  | unknown hname => rw [hname]; rfl
  | passed hname => rw [hname]; rfl
  | failed hname => rw [hname]; rfl

/-- A script does the same with notes taken before it. -/
theorem runIn_of_does (hd : Does (ExceptT.run (sc.script o.baseUrl)) s d) :
    (sc.script o.baseUrl).runIn { s with notes := [] } = (d.outcome, d.after { s with notes := [] }) :=
  hd { s with notes := [] } fun _ _ => rfl

theorem follows_after (d : Doing (Except Failure Unit)) (s : Session) :
    s.Follows (d.after { s with notes := [] }) d.sent := ⟨rfl, rfl⟩

/-- The session after a script that failed is the one after the evidence was collected. -/
theorem Breaks.follows (h : Breaks o name s f broken) (e : Environment) (b : Browser) :
    broken.Follows (scriptEntry e o b name s).2 Evidence.commands := by
  obtain ⟨sc, hname, hrun⟩ := h
  simp only [scriptEntry, hname, play, hrun]
  exact (run_collect f broken).2

theorem Breaks.script_follows (h : Breaks o name s f broken) : ∃ own, s.Follows broken own := by
  obtain ⟨sc, -, hrun⟩ := h
  obtain ⟨d, hd⟩ := sc.orderly_script o.baseUrl s
  rw [runIn_of_does hd, Prod.mk.injEq] at hrun
  exact ⟨_, hrun.2 ▸ follows_after d s⟩

/-- What the entry of a scenario sends and what comes of it, by what its script does. -/
theorem scriptEntry_of_does (hname : Scenario.ofName? name = some sc)
    (hd : Does (ExceptT.run (sc.script o.baseUrl)) s d) :
    s.Follows (scriptEntry e o b name s).2
        (d.sent ++ if d.outcome.isOk then [] else Evidence.commands) ∧
      (scriptEntry e o b name s).1.result = some (.ofOutcome sc.name b.label
        (match d.outcome with
          | .ok () => none
          | .error f => some f.text) (e.spent name)) := by
  have hrun := runIn_of_does hd
  have hscript := follows_after d s
  cases houtcome : d.outcome with
  | ok =>
    rw [houtcome] at hrun
    simp only [scriptEntry, hname, play, hrun]
    exact ⟨hscript.trans (.refl _), rfl⟩
  | error f =>
    rw [houtcome] at hrun
    refine ⟨hscript.trans (Breaks.follows ⟨sc, hname, hrun⟩ e b), ?_⟩
    simp only [scriptEntry, hname, play, hrun]
    rfl

theorem scriptEntry_follows (e : Environment) (o : Options) (b : Browser) (name : String) (s : Session) :
    ∃ commands, s.Follows (scriptEntry e o b name s).2 commands := by
  cases hname : Scenario.ofName? name with
  | none =>
    refine ⟨[], ?_⟩
    simp only [scriptEntry, hname]
    exact .refl s
  | some sc =>
    obtain ⟨d, hd⟩ := sc.orderly_script o.baseUrl s
    exact ⟨_, (scriptEntry_of_does hname hd).1⟩

/-- The replies that a script takes decide on its result; those that collecting evidence takes do not. -/
theorem scriptEntry_alike {commands : List Command} (hs : s.Follows (scriptEntry e o b name s).2 commands)
    (ht : ∀ i < commands.length,
      (∀ f broken, Breaks o name s f broken → s.sent.length + i < broken.sent.length) → t.reply i = s.reply i) :
    t.Follows (scriptEntry e o b name t).2 commands ∧
      (scriptEntry e o b name t).1.result = (scriptEntry e o b name s).1.result := by
  cases hname : Scenario.ofName? name with
  | none =>
    simp only [scriptEntry, hname] at hs ⊢
    rw [hs.unique (.refl s)]
    exact ⟨.refl t, trivial⟩
  | some sc =>
    obtain ⟨d, hd⟩ := sc.orderly_script o.baseUrl s
    obtain ⟨hfollows, hresult⟩ := scriptEntry_of_does (e := e) (b := b) hname hd
    obtain rfl := hs.unique hfollows
    have hown : ∀ i < d.sent.length, t.reply i = s.reply i := by
      intro i hi
      refine ht i (by rw [List.length_append]; omega) fun f broken ⟨sc', hname', hrun⟩ => ?_
      obtain rfl := Option.some.inj (hname.symm.trans hname')
      rw [runIn_of_does hd, Prod.mk.injEq] at hrun
      rw [← hrun.2, (follows_after d s).length_sent]
      omega
    obtain ⟨hfollows', hresult'⟩ := scriptEntry_of_does (e := e) (b := b) hname (hd.of_replies hown)
    exact ⟨hfollows', hresult'.trans hresult.symm⟩

/-! ### Runs -/

theorem scriptEntries_append (before after : List String) (s : Session) :
    scriptEntries e o b (before ++ after) s =
      ((scriptEntries e o b before s).1 ++ (scriptEntries e o b after (scriptEntries e o b before s).2).1,
        (scriptEntries e o b after (scriptEntries e o b before s).2).2) := by
  induction before generalizing s with
  | nil => rfl
  | cons name before ih => simp only [List.cons_append, scriptEntries, ih]

theorem length_scriptEntries (names : List String) (s : Session) :
    (scriptEntries e o b names s).1.length = names.length := by
  induction names generalizing s with
  | nil => rfl
  | cons name names ih => simp only [scriptEntries, List.length_cons, ih]

theorem scriptEntries_follows (names : List String) (s : Session) :
    ∃ commands, s.Follows (scriptEntries e o b names s).2 commands := by
  induction names generalizing s with
  | nil => exact ⟨[], .refl s⟩
  | cons name names ih =>
    obtain ⟨first, hfirst⟩ := scriptEntry_follows e o b name s
    obtain ⟨rest, hrest⟩ := ih (scriptEntry e o b name s).2
    exact ⟨_, hfirst.trans hrest⟩

/-- A reply is for evidence of the first name's script, or for evidence that comes later. -/
theorem forEvidence_cons {commands : List Command} {i : Nat} (h : s.Follows (scriptEntry e o b name s).2 commands) :
    ForEvidence e o b (name :: names) s i ↔
      (∃ f broken, Breaks o name s f broken ∧ broken.sent.length ≤ s.sent.length + i ∧ i < commands.length) ∨
        ∃ j, i = commands.length + j ∧ ForEvidence e o b names (scriptEntry e o b name s).2 j := by
  have hlast := h.length_sent
  constructor
  · rintro ⟨before, name', after, f, broken, hnames, hbreaks, hfrom, hto⟩
    cases before with
    | nil =>
      obtain ⟨rfl, -⟩ := List.cons.inj hnames
      have hend := (hbreaks.follows e b).length_sent
      exact .inl ⟨f, broken, hbreaks, hfrom, by simp only [scriptEntries] at hend; omega⟩
    | cons first before =>
      -- Sessions only grow, so this evidence comes after all commands of the first entry.
      obtain ⟨rfl, rfl⟩ := List.cons.inj hnames
      obtain ⟨others, hothers⟩ := scriptEntries_follows (e := e) (o := o) (b := b) before (scriptEntry e o b name s).2
      obtain ⟨own, hown⟩ := hbreaks.script_follows
      have hbroken := (hothers.trans hown).length_sent
      exact .inr ⟨i - commands.length, by omega, before, name', after, f, broken, rfl, hbreaks, by omega, by omega⟩
  · rintro (⟨f, broken, hbreaks, hfrom, hto⟩ | ⟨j, rfl, before, name', after, f, broken, rfl, hbreaks, hfrom, hto⟩)
    · have hend := (hbreaks.follows e b).length_sent
      exact ⟨[], name, names, f, broken, rfl, hbreaks, hfrom, by omega⟩
    · exact ⟨name :: before, name', after, f, broken, rfl, hbreaks, by omega, by omega⟩

/-- Sessions that answer the scripts alike lead to the same results, whatever they answer when evidence is collected. -/
theorem scriptEntries_alike (h : ∀ i, ¬ ForEvidence e o b names s i → t.reply i = s.reply i) :
    (scriptEntries e o b names t).1.map (·.result) = (scriptEntries e o b names s).1.map (·.result) := by
  induction names generalizing s t with
  | nil => rfl
  | cons name names ih =>
    obtain ⟨commands, hs⟩ := scriptEntry_follows e o b name s
    obtain ⟨ht, hresult⟩ := scriptEntry_alike (t := t) hs fun i hi hown => by
      refine h i fun hi' => ?_
      obtain ⟨f, broken, hbreaks, hfrom, -⟩ | ⟨j, hj, -⟩ := (forEvidence_cons hs).mp hi'
      · exact absurd (hown f broken hbreaks) (by omega)
      · omega
    have hrest := ih (s := (scriptEntry e o b name s).2) (t := (scriptEntry e o b name t).2) fun i hi => by
      rw [ht.reply, hs.reply]
      refine h _ fun hi' => ?_
      obtain ⟨f, broken, -, -, hto⟩ | ⟨j, hj, hevidence⟩ := (forEvidence_cons hs).mp hi'
      · omega
      · obtain rfl : i = j := by omega
        exact hi hevidence
    simp only [scriptEntries, List.map_cons, hresult, hrest]

/-- Files that cannot be written have no influence on what is collected and done. -/
theorem scriptEntry_writable (writable : String → Bool) (name : String) (s : Session) :
    (scriptEntry { e with writable } o b name s).1.result = (scriptEntry e o b name s).1.result ∧
      (scriptEntry { e with writable } o b name s).1.filed.map (·.evidence) =
        (scriptEntry e o b name s).1.filed.map (·.evidence) ∧
      (scriptEntry { e with writable } o b name s).2 = (scriptEntry e o b name s).2 := by
  cases hname : Scenario.ofName? name with
  | none => simp only [scriptEntry, hname, and_self]
  | some sc =>
    simp only [scriptEntry, hname, play]
    split <;> exact ⟨rfl, rfl, rfl⟩

theorem scriptEntries_writable (writable : String → Bool) (names : List String) (s : Session) :
    (scriptEntries { e with writable } o b names s).1.map (fun x => (x.result, x.filed.map (·.evidence))) =
        (scriptEntries e o b names s).1.map (fun x => (x.result, x.filed.map (·.evidence))) ∧
      (scriptEntries { e with writable } o b names s).2 = (scriptEntries e o b names s).2 := by
  induction names generalizing s with
  | nil => exact ⟨rfl, rfl⟩
  | cons name names ih =>
    obtain ⟨hresult, hevidence, hlast⟩ := scriptEntry_writable (e := e) (o := o) (b := b) writable name s
    obtain ⟨hrest, hend⟩ := ih (scriptEntry e o b name s).2
    simp only [scriptEntries, List.map_cons, hresult, hevidence, hlast, hrest, hend, and_self]

/-- Names that lead to scenarios have a result each, and other names have none. -/
theorem results_scriptEntries (names : List String) (s : Session) :
    ((scriptEntries e o b names s).1.filterMap (·.result)).map (fun r => (r.scenario, r.target)) =
      (resolved names).map fun sc => (sc.name, b.label) := by
  rw [resolved, List.map_filterMap, List.map_filterMap]
  induction names generalizing s with
  | nil => rfl
  | cons name names ih =>
    have hentry := (scriptEntry_accounts (e := e) (o := o) (b := b) name s).result_eq
    simp only [scriptEntries, List.filterMap_cons, hentry, ih]

/-- Every name of a list is accounted for, in order. Files that cannot be written have no influence on the results, the
    evidence and the session, and failures while evidence is collected have none on the results. -/
theorem every_name_accounted_for (e : Environment) (o : Options) (b : Browser) (names : List String) (s : Session) :
    (scriptEntries e o b names s).1.length = names.length ∧
      ((scriptEntries e o b names s).1.filterMap (·.result)).map (fun r => (r.scenario, r.target)) =
        (resolved names).map (fun sc => (sc.name, b.label)) ∧
      (∀ before name after, names = before ++ name :: after → ∃ entry,
        (scriptEntries e o b names s).1[before.length]? = some entry ∧
        Accounts e o b name (scriptEntries e o b before s).2 entry (scriptEntries e o b (before ++ [name]) s).2) ∧
      (∀ writable,
        (scriptEntries { e with writable } o b names s).1.map (fun x => (x.result, x.filed.map (·.evidence))) =
            (scriptEntries e o b names s).1.map (fun x => (x.result, x.filed.map (·.evidence))) ∧
          (scriptEntries { e with writable } o b names s).2 = (scriptEntries e o b names s).2) ∧
      ∀ t, (∀ i, ¬ ForEvidence e o b names s i → t.reply i = s.reply i) →
        (scriptEntries e o b names t).1.map (·.result) = (scriptEntries e o b names s).1.map (·.result) := by
  refine ⟨length_scriptEntries names s, results_scriptEntries names s, fun before name after hnames => ?_,
    fun writable => scriptEntries_writable writable names s, fun t ht => scriptEntries_alike ht⟩
  have hentry := scriptEntry_accounts (e := e) (o := o) (b := b) name (scriptEntries e o b before s).2
  refine ⟨(scriptEntry e o b name (scriptEntries e o b before s).2).1, ?_, ?_⟩
  · rw [hnames, scriptEntries_append, List.getElem?_append_right (Nat.le_of_eq (length_scriptEntries before s)),
      length_scriptEntries, Nat.sub_self]
    rfl
  · rw [scriptEntries_append]
    exact hentry

/-- An environment at the start of 1970, where nothing takes time, no session can be opened and everything written. -/
def idle : Environment := ⟨0, fun _ => .zero, ⟨false⟩, fun _ => .error "", fun _ => true⟩

/-- A session whose page cannot be loaded, and that is gone when evidence is collected. -/
def unloaded : Session := ⟨[.failure "no page", .failure "gone", .failure "gone", .failure "gone"], [], []⟩

/-- The script that cannot load its page fails in the same way when the session is not gone, and leaves a summary when it
    is. -/
theorem unloaded_page_accounted_for :
    (scriptEntries idle {} .chrome ["nonsense", "cookie"] ⟨[.failure "no page"], [], []⟩).1.map (·.result) =
        (scriptEntries idle {} .chrome ["nonsense", "cookie"] unloaded).1.map (·.result) ∧
      (scriptEntries idle {} .chrome ["nonsense", "cookie"] unloaded).1.map (·.result) =
        [none, some ⟨"Cookie Idempotence", "chrome", false, ["no page"], .zero⟩] ∧
      (scriptEntries idle {} .chrome ["nonsense", "cookie"] unloaded).1.map (fun x => x.filed.map (·.written)) =
        [none, some [("summary.txt", "error: no page\nbridge: unavailable\n".toUTF8.data.toList)]] := by
  have hbreaks : Breaks {} "cookie" unloaded (.remote "no page")
      ⟨unloaded.replies.drop 1, [.visit "http://localhost:8080/?test=1"], []⟩ :=
    ⟨.cookieIdempotence, by decide +kernel, rfl⟩
  have hevidence : ∀ i, 1 ≤ i → i < 4 → ForEvidence idle {} .chrome ["nonsense", "cookie"] unloaded i := fun i h h' =>
    ⟨["nonsense"], "cookie", [], _, _, rfl, hbreaks, Nat.le_trans h (Nat.le_add_left _ _), by
      rw [show unloaded.sent.length = 0 from rfl, Nat.zero_add]
      exact h'⟩
  refine ⟨(every_name_accounted_for idle {} .chrome ["nonsense", "cookie"] unloaded).2.2.2.2 _ fun i hi => ?_, rfl,
    by decide +kernel⟩
  match i with
  | 0 => rfl
  | 1 | 2 | 3 => exact absurd (hevidence _ (by decide) (by decide)) hi
  | i + 4 => simp [Session.reply, unloaded]

end Run
end Tester
end PageWidgets

import Mathlib.Data.List.Perm.Basic
import ServingAdmin.Proofs.Cluster.Listing
import ServingAdmin.Proofs.Registry.Selection
import ServingAdmin.Proofs.Run.Effect

/-!
# Listing the registries of a cluster

The registries of a cluster are listed by one request for its namespaces and one for the secrets
of each of them.  What is printed depends on which objects there are and not on the order in which
they are given: it is the table of the rows of just those managed secrets that are asked for
(`registryList_orderIndependent`).
-/

namespace ServingAdmin
namespace Registry

open Cluster Script

/-! ### What is asked for -/

/-- Whether a name is asked for.  No name, like an empty one, asks for all. -/
def asks
    (given : Option String)
    (held : String) :
    Bool :=
  given.getD "" = "" || given = some held

/-- What is listed of an object; what cannot be decoded has no credentials. -/
def reduced
    (s : Cluster.Secret) :
    Secret :=
  Secret.ofConfig s ((DockerConfig.decode (Secret.payload s)).toOption.getD ⟨.empty⟩)

/-- Whether an object is managed by this tool, and both its namespace and its service account are
asked for. -/
def isSelected
    (ns account : Option String)
    (s : Cluster.Secret) :
    Bool :=
  Store.isManaged s && asks ns (reduced s).ns && asks account (reduced s).account

/-- Namespaces and secrets of which the registries can be listed. -/
structure Listable
    (namespaces : List String)
    (secrets : List Cluster.Secret) :
    Prop where
  /-- No two namespaces have one name. -/
  distinct : namespaces.Nodup
  /-- Every secret is in one of the namespaces. -/
  located : ∀ s ∈ secrets, ∃ ns ∈ namespaces, s.ns? = some ns
  /-- No two secrets have one namespace and one name. -/
  identified : (secrets.map fun s => (reduced s).identity).Nodup
  /-- The managed secrets can be decoded. -/
  decodable : ∀ s ∈ secrets, Store.isManaged s = true →
    ∃ config, DockerConfig.decode (Secret.payload s) = .ok config

/-- The table of rows. -/
def tableOf
    (q : Query)
    (noHeaders : Bool)
    (rs : List Row) :
    Table :=
  { Table.ofHeaders ((if q.allNamespaces then ["Namespace"] else []) ++
      ["ServiceAccount", "Secret", "UserName", "Server", "Email"]) with
    rows := rs.map (Row.cells q.allNamespaces), noHeaders := noHeaders }

theorem listing_of_rows
    {secrets : List Cluster.Secret}
    {q : Query}
    {rs : List Row}
    (h : rows secrets q = .ok rs)
    (noHeaders : Bool) :
    listing secrets q noHeaders = .ok (tableOf q noHeaders rs) := by
  rw [listing, h]
  rfl

/-! ### Queries -/

theorem asks_iff
    (given : Option String)
    (held : String) :
    asks given held = true ↔ ∀ name ∈ given.filter fun s => !s.isEmpty, name = held := by
  cases given with
  | none => simp [asks]
  | some name =>
      by_cases hname : name = "" <;> simp [asks, hname]

namespace Query

variable {ns account : Option String} {q : Query}

theorem of_ofNames
    (h : ofNames ns account = .ok q) :
    q = ⟨ns.filter fun s => !s.isEmpty, account.filter fun s => !s.isEmpty⟩ := by
  simp only [ofNames] at h
  split at h
  · cases h
  · cases h
    rfl

theorem mem_ns_iff
    (h : ofNames ns account = .ok q)
    {name : String} :
    name ∈ q.ns ↔ name ∈ ns ∧ name ≠ "" := by
  rw [of_ofNames h]
  simp

/-- Of decoded secrets a query covers those of the account that is asked for. -/
theorem covers_of_ofNames
    (h : ofNames ns account = .ok q)
    (s : Secret) :
    q.covers s = asks account s.account := by
  rw [Bool.eq_iff_iff, asks_iff, of_ofNames h, covers]
  cases account.filter fun s => !s.isEmpty <;> simp

/-- A query looks into the namespaces that are asked for, if the one that it names is there. -/
theorem namespaces_of_ofNames
    (h : ofNames ns account = .ok q)
    {available : List String}
    (hdistinct : available.Nodup)
    (hfound : ∀ name ∈ q.ns, name ∈ available) :
    q.namespaces available = .ok (available.filter (asks ns)) := by
  have hasks : ∀ name, asks ns name = true ↔ ∀ other ∈ q.ns, other = name := by
    intro name
    rw [asks_iff, of_ofNames h]
  rw [namespaces]
  cases hns : q.ns with
  | none =>
      have hall : available.filter (asks ns) = available :=
        List.filter_eq_self.mpr fun name _ => (hasks name).mpr (by simp [hns])
      rw [hall]
  | some name =>
      have hmem : name ∈ available := hfound name hns
      have hone : available.filter (asks ns) = [name] := by
        have hequal : available.filter (asks ns) = available.filter (· = name) :=
          List.filter_congr fun other _ => by
            rw [Bool.eq_iff_iff, hasks, hns]
            simp [eq_comm]
        rw [hequal, List.filter_eq, List.count_eq_one_of_mem hdistinct hmem]
        rfl
      rw [hone]
      exact if_pos hmem

theorem namespaces_of_not_mem
    {available : List String}
    {name : String}
    (hname : q.ns = some name)
    (h : name ∉ available) :
    q.namespaces available = .error (.of (.namespaceNotFound name)) := by
  rw [namespaces, hname]
  exact if_neg h

end Query

/-! ### Objects -/

/-- The managed secrets of the namespaces that are asked for. -/
def searchedSecrets
    (ns : Option String)
    (secrets : List Cluster.Secret) :
    List Cluster.Secret :=
  secrets.filter fun s => Store.isManaged s && asks ns (reduced s).ns

theorem reduced_ns
    (s : Cluster.Secret) :
    (reduced s).ns = s.ns?.getD "" := by
  rw [reduced, Secret.ofConfig, Secret.ns?]
  cases s.metadata <;> rfl

theorem decodeAll_of_decodable
    {secrets : List Cluster.Secret}
    (h : ∀ s ∈ secrets, ∃ config, DockerConfig.decode (Secret.payload s) = .ok config) :
    decodeAll secrets = .ok (secrets.map reduced) := by
  induction secrets with
  | nil => rfl
  | cons s rest ih =>
      obtain ⟨config, hconfig⟩ := h s List.mem_cons_self
      have hs : Secret.ofObject s = .ok (reduced s) := by
        rw [Secret.ofObject_of_decode hconfig, reduced, hconfig]
        rfl
      rw [decodeAll, hs, ih fun other hother => h other (List.mem_cons_of_mem _ hother)]
      rfl

namespace Listable

variable {namespaces : List String} {secrets : List Cluster.Secret}
variable {ns account : Option String} {q : Query}

/-- The secrets that are found in the namespaces that are asked for. -/
theorem filter_asked
    (h : Listable namespaces secrets)
    (ns : Option String) :
    (secrets.filter fun s => s.ns?.any (· ∈ namespaces.filter (asks ns)) && Store.isManaged s) =
      searchedSecrets ns secrets := by
  refine List.filter_congr fun s hs => ?_
  obtain ⟨name, hname, hns⟩ := h.located s hs
  rw [reduced_ns, hns, Bool.and_comm]
  simp [hname]

/-- Whatever the order in which the searched secrets are found, the query selects the same rows of
them. -/
theorem rows_eq
    (h : Listable namespaces secrets)
    {found : List Cluster.Secret}
    (hfound : found.Perm (searchedSecrets ns secrets)) :
    rows found q = .ok (selectedRows ((searchedSecrets ns secrets).map reduced) q) := by
  have hdecodable : ∀ s ∈ found,
      ∃ config, DockerConfig.decode (Secret.payload s) = .ok config := by
    intro s hs
    obtain ⟨hmem, hasked⟩ := List.mem_filter.mp (hfound.mem_iff.mp hs)
    exact h.decodable s hmem (Bool.and_eq_true_iff.mp hasked).1
  have hdistinct : ((searchedSecrets ns secrets).map fun s => (reduced s).identity).Nodup :=
    h.identified.sublist (List.filter_sublist.map _)
  have hidentities : ((found.map reduced).map Secret.identity).Nodup := by
    rw [List.map_map]
    exact (hfound.map _).nodup_iff.mpr hdistinct
  rw [rows_of_decodeAll (decodeAll_of_decodable hdecodable),
    selectedRows_congr (hfound.map reduced) hidentities]

/-- The rows are those of the selected secrets. -/
theorem selectedRows_perm_rows
    (hq : Query.ofNames ns account = .ok q)
    (secrets : List Cluster.Secret) :
    (selectedRows ((searchedSecrets ns secrets).map reduced) q).Perm
      ((secrets.filter (isSelected ns account)).flatMap fun s => (reduced s).rows) := by
  have hcovered : ((searchedSecrets ns secrets).map reduced).filter q.covers =
      (secrets.filter (isSelected ns account)).map reduced := by
    rw [List.filter_map, searchedSecrets, List.filter_filter]
    refine congrArg (List.map reduced) (List.filter_congr fun s _ => ?_)
    rw [Function.comp_apply, Query.covers_of_ofNames hq, isSelected, Bool.and_comm]
  have hrows := selectedRows_perm ((searchedSecrets ns secrets).map reduced) q
  rw [hcovered, List.flatMap_map] at hrows
  exact hrows

end Listable

/-! ### The command -/

section Command

variable {namespaces : List String} {secrets : List Cluster.Secret}
variable {ns account : Option String} {q : Query}
variable {σ : Type} {server : Server σ} {view : View σ} {s : σ}

/-- The namespaces to look into are found, if that of the query is among them. -/
theorem yields_searched
    (hq : Query.ofNames ns account = .ok q)
    (hserver : server.ListsObjects view)
    (hnamespaces : (view.namespaces s).Perm namespaces)
    (hdistinct : namespaces.Nodup)
    (hfound : ∀ name ∈ q.ns, name ∈ namespaces) :
    ∃ names, Yields server (searched q) s "" names ∧
      names.Perm (namespaces.filter (asks ns)) := by
  obtain ⟨names, hyields, hperm⟩ := hserver.yields_namespaces s
  have hperm := hperm.trans hnamespaces
  have hnames := Query.namespaces_of_ofNames hq (hperm.nodup_iff.mpr hdistinct)
    fun name hname => hperm.mem_iff.mpr (hfound name hname)
  refine ⟨names.filter (asks ns), hyields.context.bind_silent (.ofExcept ?_), hperm.filter _⟩
  rw [hnames]
  rfl

/-- A namespace that there is not cannot be looked into. -/
theorem outcome_searched_of_not_mem
    (hserver : server.ListsObjects view)
    (hnamespaces : (view.namespaces s).Perm namespaces)
    {name : String}
    (hname : q.ns = some name)
    (hmissing : name ∉ namespaces) :
    ∃ failure, (effect server (searched q) s).outcome = .failed failure := by
  obtain ⟨names, hyields, hperm⟩ := hserver.yields_namespaces s
  have hnot : name ∉ names :=
    fun hmem => hmissing ((hperm.trans hnamespaces).mem_iff.mp hmem)
  rw [searched, hyields.context.outcome_bind, Query.namespaces_of_not_mem hname hnot]
  exact ⟨_, rfl⟩

/-- The listing prints the table of the rows of the secrets that are asked for. -/
theorem yields_listCommand
    (hcluster : Listable namespaces secrets)
    (hq : Query.ofNames ns account = .ok q)
    (hplain : ∀ name ∈ namespaces, asks ns name = true → PlainSegment name)
    (hserver : server.ListsObjects view)
    (hnamespaces : (view.namespaces s).Perm namespaces)
    (hsecrets : (view.secrets s).Perm secrets)
    (hfound : ∀ name ∈ q.ns, name ∈ namespaces)
    (noHeaders : Bool) :
    Yields server (listCommand ns account noHeaders) s
      (tableOf q noHeaders
        (selectedRows ((searchedSecrets ns secrets).map reduced) q)).text () := by
  obtain ⟨names, hsearched, hnames⟩ :=
    yields_searched hq hserver hnamespaces hcluster.distinct hfound
  have hnamesPlain : ∀ name ∈ names, PlainSegment name := by
    intro name hname
    obtain ⟨hthere, hasked⟩ := List.mem_filter.mp (hnames.mem_iff.mp hname)
    exact hplain name hthere hasked
  obtain ⟨found, hlisted, hperm⟩ := hserver.yields_secretsOf hnamesPlain s
  have hall : found.Perm (searchedSecrets ns secrets) := by
    have hobjects : ∀ name ∈ names,
        (managedIn name (view.secrets s)).Perm (managedIn name secrets) :=
      fun _ _ => hsecrets.filter _
    rw [← hcluster.filter_asked ns]
    exact hperm.trans ((hnames.flatMap hobjects).trans
      (flatMap_managedIn_perm (hcluster.distinct.filter _) secrets))
  have htable := listing_of_rows (hcluster.rows_eq (q := q) hall) noHeaders
  refine .bind_silent (.ofExcept hq) (hsearched.bind_silent (hlisted.bind_silent ?_))
  exact .bind_silent (.ofExcept htable) (.print _)

/-- The listing of a namespace that there is not fails. -/
theorem outcome_listCommand_of_not_mem
    (hq : Query.ofNames ns account = .ok q)
    (hserver : server.ListsObjects view)
    (hnamespaces : (view.namespaces s).Perm namespaces)
    {name : String}
    (hname : q.ns = some name)
    (hmissing : name ∉ namespaces)
    (noHeaders : Bool) :
    ∃ failure,
      (effect server (listCommand ns account noHeaders) s).outcome = .failed failure := by
  obtain ⟨failure, houtcome⟩ :=
    outcome_searched_of_not_mem hserver hnamespaces hname hmissing
  refine ⟨failure, ?_⟩
  rw [listCommand, (Yields.ofExcept hq).outcome_bind, effect_bind, Effect.andThen, houtcome]

end Command

/-- The registries of a cluster are listed independently of the order in which the server gives its
objects.  There is one sequence of rows, those of just the managed secrets whose namespace and
service account are asked for, such that every server that holds the objects makes the listing
succeed and print the table of these rows, if there is the namespace that is asked for.  Otherwise
the listing fails. -/
theorem registryList_orderIndependent
    {namespaces : List String}
    {secrets : List Cluster.Secret}
    (hcluster : Listable namespaces secrets)
    {words : List String}
    {i : Invocation}
    (hread : Invocation.read words = .ok i)
    {ns account : Option String}
    {noHeaders : Bool}
    (hcommand : i.command = .listRegistries ns account noHeaders)
    {q : Query}
    (hq : Query.ofNames ns account = .ok q)
    (hplain : ∀ name ∈ namespaces, asks ns name = true → PlainSegment name) :
    ∃ rs : List Row,
      rs.Perm ((secrets.filter (isSelected ns account)).flatMap fun s => (reduced s).rows) ∧
      ∀ {σ : Type} (server : Server σ) (view : View σ) (s : σ) (isThere : String → Bool)
        (parameters : Parameters),
        server.ListsObjects view → (view.namespaces s).Perm namespaces →
        (view.secrets s).Perm secrets →
        Parameters.resolve isThere i.kubeConfig = .ok parameters →
        ((∀ name ∈ ns, name = "" ∨ name ∈ namespaces) →
          (Run.ofWords isThere server words s).1.exitCode = 0 ∧
            (Run.ofWords isThere server words s).1.output = (tableOf q noHeaders rs).text) ∧
        (∀ name ∈ ns, name ≠ "" → name ∉ namespaces →
          (Run.ofWords isThere server words s).1.exitCode = 1) := by
  refine ⟨_, Listable.selectedRows_perm_rows hq secrets, ?_⟩
  intro σ server view s isThere parameters hserver hnamespaces hsecrets hparameters
  have hscript : i.command.script = listCommand ns account noHeaders := by
    rw [hcommand]
    rfl
  constructor
  · intro hthere
    have hfound : ∀ name ∈ q.ns, name ∈ namespaces := by
      intro name hname
      obtain ⟨hgiven, hne⟩ := Query.mem_ns_iff hq |>.mp hname
      exact (hthere name hgiven).resolve_left hne
    have hcommandYields := yields_listCommand hcluster hq hplain hserver hnamespaces hsecrets
      hfound noHeaders
    rw [← hscript] at hcommandYields
    have hyields := Invocation.yields_script hparameters hcommandYields
    exact ⟨(Run.exitCode_ofWords_eq_zero_iff hread s).mpr hyields.outcome,
      (Run.output_ofWords hread s).trans hyields.printed⟩
  · intro name hname hne hmissing
    have hsearched : q.ns = some name := (Query.mem_ns_iff hq).mpr ⟨hname, hne⟩
    obtain ⟨failure, hfailed⟩ :=
      outcome_listCommand_of_not_mem hq hserver hnamespaces hsearched hmissing noHeaders
    rw [Run.exitCode_ofWords hread, Invocation.effect_script hparameters, hscript, hfailed]
    rfl

/-- A managed secret with credentials for one server. -/
def managedSecret
    (ns name account : String) :
    Cluster.Secret :=
  ⟨some
      { ns := some ns
        name := some name
        labels :=
          some ((KeyMap.empty.insert managedByLabel managerName).insert accountLabel account) },
    some (KeyMap.empty.insert configKey
      (DockerConfig.mk (KeyMap.empty.insert "r.io" ⟨"u", "", "e"⟩)).encode.toUTF8.toList)⟩

theorem decode_managedSecret
    (ns name account : String) :
    DockerConfig.decode (Secret.payload (managedSecret ns name account)) =
      .ok ⟨KeyMap.empty.insert "r.io" ⟨"u", "", "e"⟩⟩ := by
  have hpayload : Secret.payload (managedSecret ns name account) =
      (DockerConfig.mk (KeyMap.empty.insert "r.io" ⟨"u", "", "e"⟩)).encode.toUTF8.toList := by
    simp [Secret.payload, managedSecret]
  rw [hpayload]
  decide +kernel

/-- Three managed secrets in two namespaces. -/
def managedSecrets : List Cluster.Secret :=
  [managedSecret "infra" "pull" "default", managedSecret "apps" "push" "builder",
    managedSecret "apps" "pull" "default"]

theorem listable_managedSecrets :
    Listable ["apps", "infra"] managedSecrets where
  distinct := by
    decide
  located := by
    decide
  identified := by
    decide
  decodable s hs _ := by
    simp only [managedSecrets, List.mem_cons, List.not_mem_nil, or_false] at hs
    rcases hs with rfl | rfl | rfl
    · exact ⟨_, decode_managedSecret _ _ _⟩
    · exact ⟨_, decode_managedSecret _ _ _⟩
    · exact ⟨_, decode_managedSecret _ _ _⟩

/-- The secrets of one account are listed alike in two orders of the objects. -/
theorem registryList_orderIndependent_twoOrders :
    Listable ["apps", "infra"] managedSecrets ∧
      ∃ rs : List Row,
        rs.Perm [⟨"apps", "default", "pull", "u", "r.io", "e"⟩] ∧
        (Run.ofWords (fun _ => false) Versioned.server
            ["registry", "list", "-n", "apps", "--serviceaccount", "default"]
            ⟨.empty, ["apps", "infra"], managedSecrets, []⟩).1.output =
          (tableOf ⟨some "apps", some "default"⟩ false rs).text ∧
        (Run.ofWords (fun _ => false) Versioned.server
            ["registry", "list", "-n", "apps", "--serviceaccount", "default"]
            ⟨.empty, ["infra", "apps"], managedSecrets.reverse, []⟩).1.output =
          (tableOf ⟨some "apps", some "default"⟩ false rs).text := by
  have hread :
      Invocation.read ["registry", "list", "-n", "apps", "--serviceaccount", "default"] =
        .ok ⟨["registry", "list"], 0, false, none,
          .listRegistries (some "apps") (some "default") false⟩ := by
    decide +kernel
  have hq : Query.ofNames (some "apps") (some "default") =
      .ok ⟨some "apps", some "default"⟩ := by
    decide
  have hlabels : ∀ name ∈ ["apps", "infra"], IsDnsLabel name := by
    decide
  have hthere : ∀ name ∈ some "apps", name = "" ∨ name ∈ ["apps", "infra"] := by
    simp
  obtain ⟨rs, hrows, hruns⟩ :=
    registryList_orderIndependent listable_managedSecrets hread rfl hq
      fun name hname _ => .of_dnsLabel (hlabels name hname)
  have hselected : (managedSecrets.filter (isSelected (some "apps") (some "default"))).flatMap
      (fun s => (reduced s).rows) = [⟨"apps", "default", "pull", "u", "r.io", "e"⟩] := by
    decide +kernel
  rw [hselected] at hrows
  have hfirst := hruns Versioned.server Versioned.view
    ⟨.empty, ["apps", "infra"], managedSecrets, []⟩ (fun _ => false) ⟨none⟩
    Versioned.listsObjects (List.Perm.refl _) (List.Perm.refl _) rfl
  have hsecond := hruns Versioned.server Versioned.view
    ⟨.empty, ["infra", "apps"], managedSecrets.reverse, []⟩ (fun _ => false) ⟨none⟩
    Versioned.listsObjects (List.reverse_perm ["apps", "infra"]) (List.reverse_perm _) rfl
  exact ⟨listable_managedSecrets, rs, hrows, (hfirst.1 hthere).2, (hsecond.1 hthere).2⟩

/-- A name with a blank in it cannot stand in the path of a request: in a cluster with such a
namespace, even without any secrets, the registries of all namespaces are not listed. -/
theorem registryList_blankInName :
    Listable ["a b"] [] ∧ Query.ofNames none none = .ok ⟨none, none⟩ ∧
      Versioned.server.ListsObjects Versioned.view ∧
      (Run.ofWords (fun _ => false) Versioned.server ["registry", "list"]
        ⟨.empty, ["a b"], [], []⟩).1.exitCode = 1 := by
  refine ⟨⟨by decide, by simp, by decide, by simp⟩, rfl, Versioned.listsObjects, ?_⟩
  decide +kernel

end Registry
end ServingAdmin

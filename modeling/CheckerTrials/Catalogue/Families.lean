/-!
# Families of models

The reachability benchmarks come in families of models that differ in their size.  Tables show one row
per family, under the name that LaTeX needs.  `familyOf?` finds the family of a model file.
-/

set_option autoImplicit false

namespace CheckerTrials

/-- A family of models. -/
structure Family where
  /-- The name of the family as LaTeX shows it. -/
  name : String
  /-- The files of its models. -/
  files : List String
  deriving DecidableEq, Repr

/-- All families, in the order of the tables. -/
def families : List Family := [
  ⟨"csma", ["csma2_2.nm", "csma2_4.nm", "csma2_6.nm", "csma3_2.nm", "csma3_4.nm", "csma3_6.nm",
    "csma4_2.nm", "csma4_4.nm", "csma4_6.nm"]⟩,
  ⟨"brp", ["brp.pm"]⟩,
  ⟨"cluster", ["cluster.sm"]⟩,
  ⟨"coin", ["coin2.nm", "coin4.nm"]⟩,
  ⟨"crowds", ["crowds.pm"]⟩,
  ⟨"egl", ["egl.pm"]⟩,
  ⟨"embedded", ["embedded.sm"]⟩,
  ⟨"firewire", ["firewire.nm", "firewire_abst.nm", "firewire_dl.nm", "firewire_impl_dl.nm"]⟩,
  ⟨"fms", ["fms.sm"]⟩,
  ⟨"herman", ["herman11.pm", "herman13.pm", "herman15.pm", "herman3.pm", "herman5.pm", "herman7.pm",
    "herman9.pm"]⟩,
  ⟨"kanban", ["kanban.sm"]⟩,
  ⟨"leader\\_sync", ["leader_sync3_2.pm", "leader_sync3_3.pm", "leader_sync3_4.pm",
    "leader_sync4_2.pm", "leader_sync4_3.pm", "leader_sync4_4.pm", "leader_sync5_2.pm",
    "leader_sync5_3.pm", "leader_sync5_4.pm"]⟩,
  ⟨"mapk\\_cascade", ["mapk_cascade.sm"]⟩,
  ⟨"nand", ["nand.pm"]⟩,
  ⟨"poll", ["poll10.sm", "poll11.sm", "poll12.sm", "poll13.sm", "poll14.sm", "poll15.sm", "poll16.sm",
    "poll17.sm", "poll18.sm", "poll19.sm", "poll20.sm", "poll3.sm", "poll4.sm", "poll5.sm", "poll6.sm",
    "poll7.sm", "poll8.sm", "poll9.sm"]⟩,
  ⟨"tandem", ["tandem.sm"]⟩,
  ⟨"wlan", ["wlan0.nm", "wlan1.nm", "wlan2.nm", "wlan3.nm", "wlan4.nm", "wlan5.nm", "wlan6.nm"]⟩,
  ⟨"wlan\\_dl", ["wlan_dl0.nm", "wlan_dl1.nm", "wlan_dl2.nm", "wlan_dl3.nm", "wlan_dl4.nm",
    "wlan_dl5.nm", "wlan_dl6.nm"]⟩,
  ⟨"zeroconf", ["zeroconf.nm"]⟩,
  ⟨"zeroconf\\_dl", ["zeroconf_dl.nm"]⟩]

/-- The name of the family that a model file belongs to. -/
def familyOf? (file : String) : Option String :=
  (families.find? fun family => family.files.contains file).map Family.name

/-- Only the names of families are found. -/
theorem mem_families_of_familyOf? {file name : String} (h : familyOf? file = some name) :
    name ∈ families.map Family.name := by
  obtain ⟨family, hf, rfl⟩ := Option.map_eq_some_iff.1 h
  exact List.mem_map_of_mem (List.mem_of_find?_eq_some hf)

/-- The families in the plot of state counts. -/
def plotFamilies : List String := ["zeroconf", "zeroconf\\_dl", "embedded", "wlan", "nand", "brp"]

end CheckerTrials

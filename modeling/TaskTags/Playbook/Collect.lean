import TaskTags.Playbook.Basic
import TaskTags.Tag.Collector

/-!
The tags of a playbook as they are declared, with the tasks that carry them. The tags of plays and
blocks belong to all tasks inside.
-/

namespace TaskTags

mutual
def TaskNode.collect (collector : TagCollector) (inherited : TagSet) : TaskNode → TagCollector
  | .task declared _ =>
    collector.addAll ((TagEntry.flatten declared.tags).union inherited) (some declared.name)
  | .block declared body rescue always =>
    let tags := (TagEntry.flatten declared.tags).union inherited
    let collector := collector.addAll tags none
    let collector := TaskNode.collectAll collector tags body
    let collector := TaskNode.collectAll collector tags rescue
    TaskNode.collectAll collector tags always

def TaskNode.collectAll (collector : TagCollector) (inherited : TagSet) :
    List TaskNode → TagCollector
  | [] => collector
  | node :: rest => TaskNode.collectAll (node.collect collector inherited) inherited rest
end

def Play.collect (collector : TagCollector) (play : Play) : TagCollector :=
  let tags := TagEntry.flatten play.declared.tags
  Section.all.foldl (fun c s => TaskNode.collectAll c tags (play.nodes s)) (collector.addAll tags none)

def Playbook.collect (playbook : Playbook) : TagCollector :=
  playbook.foldl Play.collect TagCollector.empty

end TaskTags

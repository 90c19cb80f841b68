import MochiPort.TelegramProgress

namespace MochiPort

inductive ImLocale where
  | zhCn | enUs
  deriving DecidableEq

namespace ImLocale

variable (locale : ImLocale)

def choose (zhCn enUs : String) : String :=
  match locale with
  | .zhCn => zhCn
  | .enUs => enUs

def telegramCommandProgressTitle (completed failedTask : Bool) (total failed running interrupted : Nat) : String :=
  let title := match locale, completed, failedTask with
    | .zhCn, true, true => s!"执行失败 · {total} 步"
    | .enUs, true, true => s!"Execution failed · {total} steps"
    | .zhCn, true, false =>
      if interrupted > 0 then s!"执行结束 · {total} 步" else s!"执行完成 · {total} 步"
    | .enUs, true, false =>
      if interrupted > 0 then s!"Execution stopped · {total} steps" else s!"Execution complete · {total} steps"
    | .zhCn, false, _ => s!"执行中 · {total} 步"
    | .enUs, false, _ => s!"Running · {total} steps"
  let failed := if failed = 0 then "" else locale.choose s!" · {failed} 个失败" s!" · {failed} failed"
  let running :=
    if running = 0 || completed then "" else locale.choose s!" · {running} 个进行中" s!" · {running} running"
  let interrupted :=
    if interrupted = 0 then "" else locale.choose s!" · {interrupted} 个中断" s!" · {interrupted} interrupted"
  title ++ failed ++ running ++ interrupted

def telegramCommandProgressOmitted (count : Nat) : String :=
  locale.choose s!"… 另外 {count} 个较早步骤" s!"… {count} earlier steps"

def telegramFinalReplyHeading : String := locale.choose "最终回复" "Final reply"

def twoDigits (n : Nat) : String := if n < 10 then s!"0{n}" else s!"{n}"

def telegramTurnElapsed (elapsedMs : Nat) : String :=
  let totalSeconds := (elapsedMs / 1000) % (u64Max + 1)
  let hours := totalSeconds / 3600
  let minutes := totalSeconds % 3600 / 60
  let seconds := totalSeconds % 60
  match locale with
  | .zhCn =>
    if hours > 0 then s!"{hours}小时{minutes}分"
    else if minutes > 0 then s!"{minutes}分{seconds}秒" else s!"{seconds}秒"
  | .enUs =>
    if hours > 0 then s!"{hours}h{twoDigits minutes}m"
    else if minutes > 0 then s!"{minutes}m{twoDigits seconds}s" else s!"{seconds}s"

def telegramCommentaryOmitted (count : Nat) : String :=
  locale.choose s!"… 另外 {count} 条较早进展已省略" s!"… {count} earlier updates omitted"

def telegramCommandProgressErrorSummary : String := locale.choose "错误摘要：" "Error summary:"

def telegramTaskProgressTitle (completed failed : Bool) : String :=
  match completed, failed with
  | true, true => locale.choose "任务失败" "Task failed"
  | true, false => locale.choose "任务完成" "Task complete"
  | false, _ => locale.choose "任务进行中" "Task in progress"

def telegramPlanHeading (completed total : Nat) : String :=
  locale.choose s!"计划 · {completed}/{total}" s!"Plan · {completed}/{total}"

def telegramProgressStatusLabel (status : String) : String :=
  match status with
  | "succeeded" => locale.choose "成功" "Succeeded"
  | "completed" => locale.choose "完成" "Done"
  | "responded" => locale.choose "已回复" "Responded"
  | "running" | "in_progress" => locale.choose "进行中" "Running"
  | "failed" => locale.choose "失败" "Failed"
  | "interrupted" => locale.choose "已中断" "Interrupted"
  | "pending" => locale.choose "待处理" "Pending"
  | _ => locale.choose "未知" "Unknown"

def telegramPlanOmitted (count : Nat) : String :=
  locale.choose s!"… 另外 {count} 个计划步骤" s!"… {count} more plan steps"

def telegramDiffHeading (files additions deletions : Nat) : String :=
  locale.choose s!"文件修改 · {files} 个文件 · +{additions} -{deletions}"
    s!"File changes · {files} files · +{additions} -{deletions}"

def telegramDiffOmitted (count : Nat) : String := locale.choose s!"… 另外 {count} 个文件" s!"… {count} more files"

def telegramCollabProgressTitle (completed : Bool) (total failed running interrupted : Nat) : String :=
  let title :=
    if !completed then locale.choose s!"协作中 · {total} 个子代理" s!"Collaborating · {total} agents"
    else if failed + interrupted + running = 0 then
      locale.choose s!"协作完成 · {total} 个子代理" s!"Collaboration complete · {total} agents"
    else locale.choose s!"协作结束 · {total} 个子代理" s!"Collaboration ended · {total} agents"
  let running :=
    if running > 0 && !completed then locale.choose s!" · {running} 个进行中" s!" · {running} running" else ""
  let failed := if failed > 0 then locale.choose s!" · {failed} 个失败" s!" · {failed} failed" else ""
  let interrupted :=
    if interrupted > 0 then locale.choose s!" · {interrupted} 个未完成" s!" · {interrupted} unfinished" else ""
  title ++ running ++ failed ++ interrupted

def telegramCollabProgressOmitted (count : Nat) : String :=
  locale.choose s!"… 另外 {count} 个子代理" s!"… {count} more agents"

def telegramCollabDuration (durationMs : Nat) : String :=
  if durationMs < 1000 then locale.choose s!"{durationMs}毫秒" s!"{durationMs}ms"
  else
    let seconds := durationMs / 1000
    if seconds < 60 then locale.choose s!"{seconds}秒" s!"{seconds}s"
    else locale.choose s!"{seconds / 60}分{seconds % 60}秒" s!"{seconds / 60}m {seconds % 60}s"

def telegramRetryProgressTitle (completed failed : Bool) (count : Nat) : String :=
  match locale, completed, failed with
  | .zhCn, true, true => s!"模型请求失败 · 已重试 {count} 次"
  | .zhCn, true, false => s!"模型请求已恢复 · 共重试 {count} 次"
  | .zhCn, false, _ => s!"模型请求重试中 · 第 {count} 次"
  | .enUs, true, true =>
    if count = 1 then "Model request failed · retried once" else s!"Model request failed · retried {count} times"
  | .enUs, true, false =>
    if count = 1 then "Model request recovered · retried once"
    else s!"Model request recovered · retried {count} times"
  | .enUs, false, _ => s!"Retrying model request · attempt {count}"

def telegramRetryProgressSummary (count : Nat) : String :=
  match locale with
  | .zhCn => s!"模型请求重试：{count} 次"
  | .enUs => if count = 1 then "Model request retried once" else s!"Model request retried {count} times"

def telegramRetryErrorSummary : String := locale.choose "最近错误：" "Latest error:"

end ImLocale

end MochiPort

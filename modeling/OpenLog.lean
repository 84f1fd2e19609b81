import OpenLog.Text.Lines
import OpenLog.Text.Blocks
import OpenLog.Text.Adjacent
import OpenLog.Text.Directory
import OpenLog.Text.Files
import OpenLog.Text.First
import OpenLog.Text.Pieces
import OpenLog.FindKeyword.Scan
import OpenLog.FindKeyword.Sections
import OpenLog.FindKeyword.Idempotent
import OpenLog.FindKeyword.Reports
import OpenLog.FindKeyword.ReadAhead
import OpenLog.LogAssistant.FileOutput
import OpenLog.LogAssistant.Segments
import OpenLog.LogAssistant.ReadLineNum
import OpenLog.LogAssistant.Buffers
import OpenLog.LogAssistant.NumberedLines
import OpenLog.LogAssistant.Search
import OpenLog.LogAssistant.WorkFiles
import OpenLog.LogAssistant.Script
import OpenLog.Logic.Run
import OpenLog.Logic.Loop
import OpenLog.Logic.Prog
import OpenLog.Logic.Assume
import OpenLog.Logic.Reservations
import OpenLog.Libxl.Job
import OpenLog.Libxl.BeginJob
import OpenLog.Libxl.JobLock
import OpenLog.Libxl.JobLock.Exclusion
import OpenLog.Libxl.JobLock.Slots
import OpenLog.Libxl.JobLock.Accounting
import OpenLog.Libxl.JobLock.Stranded
import OpenLog.Libxl.Op
import OpenLog.Libxl.Domain
import OpenLog.Libxl.JobPairing
import OpenLog.Libxl.Migrate
import OpenLog.Libxl.MigrationJob
import OpenLog.Libxl.SplitBrain
import OpenLog.Libxl.MigrationEnd
import OpenLog.Libxl.MigrationPorts
import OpenLog.Libxl.MigrationAddress
import OpenLog.Libxl.JobOwnership
import OpenLog.Libxl.LockDiscipline
import OpenLog.Libxl.Handles
import OpenLog.Libxl.DomainList
import OpenLog.Libxl.AoHow
import OpenLog.Libxl.ChildTable
import OpenLog.Libxl.ReapOnce
import OpenLog.Libxl.Patch0913.Finish
import OpenLog.Libxl.Patch0913.Handshake
import OpenLog.Libxl.Patch1102.Domain
import OpenLog.Libxl.Patch1102.EndedKind
import OpenLog.Libxl.SaveReport
import OpenLog.SearchSh.Git
import OpenLog.SearchSh.Bisection
import OpenLog.SearchSh.YearLoop
import OpenLog.Format.Words
import OpenLog.Xl.SaveFile
import OpenLog.Xl.Code
import OpenLog.Xl.Sides
import OpenLog.Xl.Handover
import OpenLog.Logic.LockOrder
import OpenLog.Libxl.LockOrder
import OpenLog.Xen.DeathSearch
import OpenLog.Xen.DeathWatch
import OpenLog.Libxl.EventHandle
import OpenLog.Logic.Pool
import OpenLog.Logic.Simulation
import OpenLog.Xen.Timeout

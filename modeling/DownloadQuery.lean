import DownloadQuery.Main
import DownloadQuery.Proofs.Catalogue.History
import DownloadQuery.Proofs.Catalogue.Configured
import DownloadQuery.Proofs.Catalogue.ParametricNames
import DownloadQuery.Proofs.Condition.Brackets
import DownloadQuery.Proofs.Condition.ComparisonLists
import DownloadQuery.Proofs.Condition.DetectedFamilies
import DownloadQuery.Proofs.Condition.ListedConditions
import DownloadQuery.Proofs.Condition.OperatorsByFamily
import DownloadQuery.Proofs.Condition.RegexOperator
import DownloadQuery.Proofs.Condition.ShownTimes
import DownloadQuery.Proofs.Condition.SizeConditions
import DownloadQuery.Proofs.Condition.TextFixpoint
import DownloadQuery.Proofs.Condition.TokenLists
import DownloadQuery.Proofs.Condition.TimeConditions
import DownloadQuery.Proofs.Content.ByteTotals
import DownloadQuery.Proofs.Content.Classification
import DownloadQuery.Proofs.Display.SizeText
import DownloadQuery.Proofs.Display.SpanText
import DownloadQuery.Proofs.Field.Export
import DownloadQuery.Proofs.Filter.Reordering
import DownloadQuery.Proofs.Filter.Support
import DownloadQuery.Proofs.Filter.TagConditions
import DownloadQuery.Proofs.Pattern.Classes
import DownloadQuery.Proofs.Pattern.PlainWords
import DownloadQuery.Proofs.Reading.ExportedItems
import DownloadQuery.Proofs.Reading.Session
import DownloadQuery.Proofs.Report.Agreement
import DownloadQuery.Proofs.Selection
import DownloadQuery.Proofs.Tracker
